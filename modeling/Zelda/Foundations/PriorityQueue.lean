import Mathlib.Tactic

/-!
# Priority queues

A priority queue returns an element of least cost, but which of several such elements comes first
is left open (as it is for `std::priority_queue`). `PriorityQueue` is any way of settling it: the
queue is a list of its elements in an order of its own, and the laws speak of the list up to
permutation.
-/

namespace Zelda

/-- A queue that returns an element of least cost. -/
structure PriorityQueue (α : Type*) {K : Type*} [LE K] (cost : α → K) where
  push : α → List α → List α
  /-- The top element and the queue without it. -/
  pop : List α → Option (α × List α)
  push_perm : ∀ a q, (push a q).Perm (a :: q)
  pop_eq_none : ∀ q, pop q = none ↔ q = []
  pop_perm : ∀ {q a q'}, pop q = some (a, q') → q.Perm (a :: q')
  cost_le : ∀ {q a q'}, pop q = some (a, q') → ∀ b ∈ q', cost a ≤ cost b

namespace PriorityQueue

variable {α K : Type*} [LE K] {cost : α → K} (Q : PriorityQueue α cost)

theorem mem_push {a b : α} {q : List α} : b ∈ Q.push a q ↔ b = a ∨ b ∈ q := by
  rw [(Q.push_perm a q).mem_iff, List.mem_cons]

theorem mem_of_pop {q q' : List α} {a b : α} (h : Q.pop q = some (a, q')) :
    b ∈ q ↔ b = a ∨ b ∈ q' := by
  rw [(Q.pop_perm h).mem_iff, List.mem_cons]

/-- A queue ordered more finely than by the cost. -/
def coarsen {K' : Type*} [LE K'] {key : α → K'} (Q : PriorityQueue α key)
    (h : ∀ a b, key a ≤ key b → cost a ≤ cost b) : PriorityQueue α cost where
  push := Q.push
  pop := Q.pop
  push_perm := Q.push_perm
  pop_eq_none := Q.pop_eq_none
  pop_perm := Q.pop_perm
  cost_le hpop b hb := h _ _ (Q.cost_le hpop b hb)

/-! ## A queue that searches for its top -/

section Selection

variable {α K : Type*} [LE K] [DecidableLE K] (cost : α → K)

/-- The first element of least cost, and the list without it. -/
def extractMin : List α → Option (α × List α)
  | [] => none
  | a :: l =>
    match extractMin l with
    | none => some (a, [])
    | some (b, l') => if cost a ≤ cost b then some (a, l) else some (b, a :: l')

theorem extractMin_eq_none {l : List α} : extractMin cost l = none ↔ l = [] := by
  cases l with
  | nil => simp [extractMin]
  | cons a l =>
    rw [extractMin]
    split
    · simp
    · split <;> simp

theorem extractMin_perm {l l' : List α} {b : α} (h : extractMin cost l = some (b, l')) :
    l.Perm (b :: l') := by
  induction l generalizing b l' with
  | nil => cases h
  | cons a l ih =>
    rw [extractMin] at h
    split at h
    · rename_i hnone
      rw [(extractMin_eq_none cost).1 hnone]
      cases h
      rfl
    · rename_i c l'' hsome
      split at h
      · cases h
        rfl
      · cases h
        exact ((ih hsome).cons a).trans (.swap b a l'')

theorem extractMin_le [Std.IsLinearPreorder K] {l l' : List α} {b : α}
    (h : extractMin cost l = some (b, l')) : ∀ c ∈ l', cost b ≤ cost c := by
  induction l generalizing b l' with
  | nil => cases h
  | cons a l ih =>
    rw [extractMin] at h
    split at h
    · cases h
      exact fun c hc => absurd hc List.not_mem_nil
    · rename_i d l'' hsome
      split at h
      · rename_i hle
        cases h
        intro c hc
        rcases List.mem_cons.1 ((extractMin_perm cost hsome).mem_iff.1 hc) with rfl | hc
        · exact hle
        · exact Std.le_trans hle (ih hsome c hc)
      · rename_i hle
        cases h
        intro c hc
        rcases List.mem_cons.1 hc with rfl | hc
        · exact Std.le_total.resolve_left hle
        · exact ih hsome c hc

/-- The queue that keeps its elements unordered. -/
def selection [Std.IsLinearPreorder K] : PriorityQueue α cost where
  push := List.cons
  pop := extractMin cost
  push_perm _ _ := .refl _
  pop_eq_none _ := extractMin_eq_none cost
  pop_perm := extractMin_perm cost
  cost_le := extractMin_le cost

end Selection

end PriorityQueue

end Zelda
