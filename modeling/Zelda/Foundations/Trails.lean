import Zelda.Foundations.LinkedSearch

/-!
# The way a search found

Following the links of a search from a node it has seen comes back to the start if it comes to an
end at all (`LinkedSearch`). The nodes passed on the way are the `Trail` of the node; read from the
start they are the way that the search found to it.

Main lemmas: `LinkedSearch.Linked.isWay`, the trail read backwards is a way from the start that
passes no node twice, and `LinkedSearch.Low.expands`, a search that takes nodes of least cost takes
none that costs more than some way to the node it looks for has to pay.
-/

namespace Zelda

variable {α : Type*} {f g : α → α} {a b : α} {l l' : List α}

/-! ## Trails -/

/-- Following `f` from the node passes the nodes of the list and comes to a fixed point. -/
inductive Trail (f : α → α) : α → List α → Prop
  | fixed {a : α} (h : f a = a) : Trail f a [a]
  | step {a : α} {l : List α} (h : f a ≠ a) (ht : Trail f (f a) l) : Trail f a (a :: l)

namespace Trail

theorem head?_eq (h : Trail f a l) : l.head? = some a := by
  cases h <;> rfl

theorem unique (h : Trail f a l) (h' : Trail f a l') : l = l' := by
  induction h generalizing l' with
  | fixed hfix =>
    cases h' with
    | fixed => rfl
    | step hne => exact absurd hfix hne
  | step hne _ ih =>
    cases h' with
    | fixed hfix => exact absurd hfix hne
    | step _ ht' => rw [ih ht']

/-- A trail goes on from every node on it. -/
theorem suffix (h : Trail f a l) (hb : b ∈ l) : ∃ l', l' <:+ l ∧ Trail f b l' := by
  induction h with
  | fixed hfix =>
    rw [List.mem_singleton.1 hb]
    exact ⟨_, List.suffix_rfl, .fixed hfix⟩
  | step hne ht ih =>
    rcases List.mem_cons.1 hb with rfl | hb
    · exact ⟨_, List.suffix_rfl, .step hne ht⟩
    · obtain ⟨l', hl', ht'⟩ := ih hb
      exact ⟨l', hl'.trans (List.suffix_cons _ _), ht'⟩

theorem nodup (h : Trail f a l) : l.Nodup := by
  induction h with
  | fixed => exact List.nodup_singleton _
  | @step a l hne ht ih =>
    refine List.nodup_cons.2 ⟨fun hmem => ?_, ih⟩
    -- the trail of `a` would be a part of itself
    obtain ⟨l', hl', ht'⟩ := ht.suffix hmem
    have hlen := hl'.length_le
    rw [ht'.unique (.step hne ht), List.length_cons] at hlen
    omega

theorem isChain (h : Trail f a l) : l.IsChain fun b c => f b = c ∧ c ≠ b := by
  induction h with
  | fixed => exact List.isChain_singleton _
  | step hne ht ih =>
    refine List.isChain_cons.2 ⟨fun b hb => ?_, ih⟩
    rw [ht.head?_eq] at hb
    obtain rfl := Option.some.inj hb
    exact ⟨rfl, hne⟩

theorem getLast?_fixed (h : Trail f a l) : ∃ b, l.getLast? = some b ∧ f b = b := by
  induction h with
  | fixed hfix => exact ⟨_, rfl, hfix⟩
  | step _ ht ih =>
    obtain ⟨b, hb, hfix⟩ := ih
    refine ⟨b, ?_, hfix⟩
    rw [List.getLast?_cons, hb, Option.getD_some]

theorem forall_mem {P : α → Prop} (hP : ∀ b, P b → P (f b)) (ha : P a) (h : Trail f a l) :
    ∀ b ∈ l, P b := by
  induction h with
  | fixed => exact fun b hb => List.mem_singleton.1 hb ▸ ha
  | step _ _ ih =>
    intro b hb
    rcases List.mem_cons.1 hb with rfl | hb
    · exact ha
    · exact ih (hP _ ha) b hb

/-- Functions that agree on a set which the first does not leave have the same trails there. -/
theorem congr {P : α → Prop} (hP : ∀ b, P b → P (f b) ∧ g b = f b) (ha : P a)
    (h : Trail f a l) : Trail g a l := by
  induction h with
  | fixed hfix => exact .fixed ((hP _ ha).2.trans hfix)
  | step hne _ ih =>
    have hg := (hP _ ha).2
    refine .step (hg ▸ hne) ?_
    rw [hg]
    exact ih (hP _ ha).1

end Trail

/-- What settles has a trail. -/
theorem Settles.exists_trail (h : Settles f a) : ∃ l, Trail f a l := by
  obtain ⟨n, hn⟩ := h
  induction n generalizing a with
  | zero => exact ⟨_, .fixed hn⟩
  | succ n ih =>
    by_cases hfix : f a = a
    · exact ⟨_, .fixed hfix⟩
    · obtain ⟨l, hl⟩ := ih hn
      exact ⟨_, .step hfix hl⟩

/-! ## Ways -/

/-- The list starts at `a`, takes a step at a time and ends at `b`. -/
structure IsWay (steps : α → α → Prop) (a b : α) (path : List α) : Prop where
  head?_eq : path.head? = some a
  isChain : path.IsChain steps
  getLast?_eq : path.getLast? = some b

/-- No way from `a` to where the list ends takes fewer steps. -/
def IsShortest (steps : α → α → Prop) (a : α) (path : List α) : Prop :=
  ∀ b way, path.getLast? = some b → IsWay steps a b way → path.length ≤ way.length

namespace LinkedSearch

variable {steps : α → α → Prop} {again start : α} {S S' : LinkedSearch α}

/-- Every node seen is linked to a predecessor of it, the start perhaps to itself. -/
def Linked (steps : α → α → Prop) (start : α) (S : LinkedSearch α) : Prop :=
  ∀ a ∈ S.seen, (a = start ∧ S.link a = a) ∨ steps (S.link a) a

theorem Linked.expands (hL : S.Linked steps start) (h : Expands steps again S S' a) :
    S'.Linked steps start := by
  intro b hb
  by_cases hf : S.Fresh steps again a b
  · rw [h.link_of_fresh b hf]
    exact .inr hf.1
  · rw [h.link_of_not_fresh b hf]
    exact hL b (((h.mem_seen b).1 hb).resolve_right hf)

/-- **The trail of a node, read backwards, is a way from the start** through nodes that were seen,
none of them twice. -/
theorem Linked.isWay (hmem : ∀ b ∈ S.seen, S.link b ∈ S.seen) (hL : S.Linked steps start)
    (hirr : ∀ b, ¬ steps b b) (ha : a ∈ S.seen) (h : Trail S.link a l) :
    IsWay steps start a l.reverse ∧ l.reverse.Nodup ∧ ∀ b ∈ l.reverse, b ∈ S.seen := by
  have hseen : ∀ b ∈ l, b ∈ S.seen := h.forall_mem hmem ha
  refine ⟨⟨?_, ?_, ?_⟩, List.nodup_reverse.2 h.nodup, ?_⟩
  · obtain ⟨b, hb, hfix⟩ := h.getLast?_fixed
    rw [List.head?_reverse, hb]
    rcases hL b (hseen b (List.mem_of_getLast? hb)) with ⟨rfl, -⟩ | hstep
    · rfl
    · rw [hfix] at hstep
      exact absurd hstep (hirr b)
  · rw [List.isChain_reverse]
    refine h.isChain.imp_of_mem_imp fun b c hb _ hbc => ?_
    obtain ⟨rfl, hne⟩ := hbc
    rcases hL b (hseen b hb) with ⟨-, hfix⟩ | hstep
    · exact absurd hfix hne
    · exact hstep
  · rw [List.getLast?_reverse, h.head?_eq]
  · exact fun b hb => hseen b (List.mem_reverse.1 hb)

/-! ## What the search has to pay -/

variable {K : Type*} [LE K] {cost : α → K} {bound : K} {d : α}

/-- `d` can be reached from `a` without paying more than `bound` for any node on the way. -/
def Within (steps : α → α → Prop) (cost : α → K) (bound : K) (a d : α) : Prop :=
  Relation.ReflTransGen (fun b c => steps b c ∧ cost c ≤ bound) a d

/-- No node has been taken that costs more than `bound`, except for the start, which is taken before
all others. -/
structure Low (cost : α → K) (bound : K) (start : α) (S : LinkedSearch α) : Prop where
  alone : start ∈ S.pending → ∀ a ∈ S.pending, a = start
  link_le : ∀ a ∈ S.seen, S.link a = start ∨ cost (S.link a) ≤ bound

/-- As long as a node has not been seen, something is pending on every way to it. -/
theorem Explored.exists_pending (hE : S.Explored steps start)
    (hway : Within steps cost bound start d) (hd : d ∉ S.seen) :
    ∃ a ∈ S.pending, a = start ∨ cost a ≤ bound := by
  have key : d ∈ S.seen ∨ ∃ a ∈ S.pending, a = start ∨ cost a ≤ bound := by
    induction hway with
    | refl => exact .inl hE.start_mem
    | @tail b c hb hbc ih =>
      by_cases hseen : b ∈ S.seen
      · rcases hE.closed b hseen with hp | hc
        · refine .inr ⟨b, hp, ?_⟩
          rcases hb.cases_tail with heq | ⟨_, -, hlast⟩
          · exact .inl heq
          · exact .inr hlast.2
        · exact .inl (hc c hbc.1)
      · exact .inr ((ih hseen).resolve_left hseen)
  exact key.resolve_left hd

/-- **A search that takes nodes of least cost takes none that costs more than it has to pay** for
some way to a node it has not seen yet. -/
theorem Low.expands [Std.IsPreorder K] (hE : S.Explored steps start) (hS : S.Low cost bound start)
    (hstart : start ≠ again) (hway : Within steps cost bound start d) (hd : d ∉ S.seen)
    (h : Expands steps again S S' a) (hleast : ∀ c ∈ S.pending, cost a ≤ cost c)
    (htaken : a ∉ S'.pending) : S'.Low cost bound start := by
  have halone : start ∈ S.pending → a = start := fun hs => hS.alone hs a h.mem_pending
  have hcost : a = start ∨ cost a ≤ bound := by
    obtain ⟨c, hc, rfl | hle⟩ := hE.exists_pending hway hd
    · exact .inl (halone hc)
    · exact .inr (Std.le_trans (hleast c hc) hle)
  refine ⟨fun hs => ?_, fun b hb => ?_⟩
  · -- the start is taken first and never entered again
    rcases h.of_pending start hs with hs' | hf
    · exact absurd (halone hs' ▸ hs) htaken
    · exact absurd hf (not_fresh_of_seen hE.start_mem hstart)
  · by_cases hf : S.Fresh steps again a b
    · rwa [h.link_of_fresh b hf]
    · rw [h.link_of_not_fresh b hf]
      exact hS.link_le b (((h.mem_seen b).1 hb).resolve_right hf)

/-- Then no node on a trail costs more either. -/
theorem Low.trail (hE : S.Explored steps start) (hS : S.Low cost bound start) (ha : a ∈ S.seen)
    (hcost : a = start ∨ cost a ≤ bound) (h : Trail S.link a l) :
    ∀ b ∈ l, b = start ∨ cost b ≤ bound := fun b hb =>
  (h.forall_mem (P := fun c => c ∈ S.seen ∧ (c = start ∨ cost c ≤ bound))
    (fun c hc => ⟨hE.link_mem c hc.1, hS.link_le c hc.1⟩) ⟨ha, hcost⟩ b hb).2

end LinkedSearch

end Zelda
