import Zelda.Foundations.LinkedSearch

/-!
# How long a search goes on

A search with a list of pending nodes, in which a node is pending once for each time it was entered.
With a weight for every node, `backlog` counts the nodes that can still be entered for the first
time and those that are pending. Entering a node for the first time leaves it as it is
(`backlog_enter`), entering one again adds its weight (`backlog_cons`), and taking one from the list
subtracts it; the order of the list does not matter (`backlog_perm`).

A walk along links that settles does so in fewer steps than there are nodes to walk through
(`Settles.exists_lt_card`): until then it does not come to any of them twice.
-/

namespace Zelda

variable {α : Type*}

/-! ## What is left to be done -/

namespace Worklist

variable {weight : α → ℕ} {unseen : Finset α} {pending : List α} {a : α}

/-- The weight of the nodes not seen yet and of those pending. -/
def backlog (weight : α → ℕ) (unseen : Finset α) (pending : List α) : ℕ :=
  ∑ a ∈ unseen, weight a + (pending.map weight).sum

theorem backlog_cons :
    backlog weight unseen (a :: pending) = backlog weight unseen pending + weight a := by
  rw [backlog, backlog, List.map_cons, List.sum_cons]
  omega

theorem backlog_perm {pending' : List α} (h : pending'.Perm pending) :
    backlog weight unseen pending' = backlog weight unseen pending := by
  rw [backlog, backlog, (h.map weight).sum_eq]

theorem backlog_enter [DecidableEq α] (h : a ∈ unseen) :
    backlog weight (unseen.erase a) (a :: pending) = backlog weight unseen pending := by
  have hsum := Finset.sum_erase_add unseen weight h
  rw [backlog_cons, backlog, backlog]
  omega

theorem backlog_mono {unseen' : Finset α} (h : unseen' ⊆ unseen) :
    backlog weight unseen' pending ≤ backlog weight unseen pending :=
  Nat.add_le_add_right (Finset.sum_le_sum_of_subset h) _

end Worklist

/-! ## Walks that settle -/

/-- Before the first fixed point, no node is come to twice. -/
theorem iterate_injOn {f : α → α} {a : α} {n : ℕ} (hn : f (f^[n] a) = f^[n] a)
    (hfirst : ∀ m < n, f (f^[m] a) ≠ f^[m] a) :
    Set.InjOn (fun k => f^[k] a) (Finset.range (n + 1)) := by
  have hne : ∀ i j, i < j → j ≤ n → f^[i] a ≠ f^[j] a := by
    intro i j hij hjn heq
    refine hfirst (n - j + i) (by omega) ?_
    -- from the repeated node on, the walk is the same and comes to the fixed point earlier
    have hearly : f^[n - j + i] a = f^[n] a := by
      rw [Function.iterate_add_apply, heq, ← Function.iterate_add_apply, Nat.sub_add_cancel hjn]
    rw [hearly, hn]
  intro i hi j hj heq
  rw [Finset.mem_coe, Finset.mem_range] at hi hj
  rcases Nat.lt_trichotomy i j with h | h | h
  · exact absurd heq (hne i j h (by omega))
  · exact h
  · exact absurd heq.symm (hne j i h (by omega))

theorem Settles.exists_lt_card {f : α → α} {a : α} (h : Settles f a) {nodes : Finset α}
    (hnodes : ∀ k, f^[k] a ∈ nodes) : ∃ n < nodes.card, f (f^[n] a) = f^[n] a := by
  classical
  refine ⟨Nat.find h, ?_, Nat.find_spec h⟩
  have hinj := iterate_injOn (Nat.find_spec h) fun m hm => Nat.find_min h hm
  have hcard := Finset.card_le_card_of_injOn _ (fun k _ => hnodes k) hinj
  rw [Finset.card_range] at hcard
  exact hcard

end Zelda
