import Mathlib.Tactic

/-!
# Searches that keep parent links

A search takes a pending node, and every successor of it that was not seen before becomes pending
and gets a link back to the node. Following the links from any seen node then comes back to where
the search began.

Here one node, `again`, is the exception: it is entered once more, and its link set again, each
time the search takes a predecessor of it. As long as `again` itself has not been taken this does no
harm (`Treelike`). Once it has been taken, the nodes beyond it link to it, and as soon as one of
these leads back to `again` the links run in a circle (`Split`).

Main lemma: `settles_iff_around`. When the search is over, following the links from a node other
than `again` comes to an end exactly if the node can be reached without passing through `again`.
-/

namespace Zelda

variable {α : Type*}

/-! ## Following links -/

/-- Following `f` from `a` comes to a fixed point. -/
def Settles (f : α → α) (a : α) : Prop := ∃ n, f (f^[n] a) = f^[n] a

theorem Settles.of_fixed {f : α → α} {a : α} (h : f a = a) : Settles f a := ⟨0, h⟩

theorem settles_apply_iff {f : α → α} {a : α} : Settles f (f a) ↔ Settles f a := by
  constructor
  · rintro ⟨n, hn⟩
    exact ⟨n + 1, hn⟩
  · rintro ⟨n, hn⟩
    cases n with
    | zero =>
      have ha : f a = a := hn
      exact .of_fixed (by rw [ha, ha])
    | succ n => exact ⟨n, hn⟩

/-- Two functions that agree on a set which the first does not leave settle alike on it. -/
theorem Settles.congr {f g : α → α} {P : α → Prop} (hP : ∀ b, P b → P (f b) ∧ g b = f b) {a : α}
    (ha : P a) (h : Settles f a) : Settles g a := by
  obtain ⟨n, hn⟩ := h
  induction n generalizing a with
  | zero => exact .of_fixed ((hP a ha).2.trans hn)
  | succ n ih =>
    rw [← settles_apply_iff, (hP a ha).2]
    exact ih (hP a ha).1 hn

/-- A set that `f` does not leave and that has no fixed point has no way to settle. -/
theorem not_settles_of_invariant {f : α → α} {P : α → Prop} (hP : ∀ b, P b → P (f b) ∧ f b ≠ b)
    {a : α} (ha : P a) : ¬ Settles f a := by
  rintro ⟨n, hn⟩
  have hmem : P (f^[n] a) := by
    clear hn
    induction n generalizing a with
    | zero => exact ha
    | succ n ih => exact ih (hP a ha).1
  exact (hP _ hmem).2 hn

/-! ## The search -/

/-- The nodes to be taken, the nodes seen so far, and the links. -/
structure LinkedSearch (α : Type*) where
  pending : Set α
  seen : Set α
  link : α → α

namespace LinkedSearch

variable (steps : α → α → Prop) (again start : α)

/-- Reached from `start`. -/
def Reachable : α → Prop := Relation.ReflTransGen steps start

/-- Reached from `start` without passing through `again`. -/
def Around : α → Prop := Relation.ReflTransGen (fun a b => a ≠ again ∧ steps a b) start

/-- When `a` is taken, `b` is entered. -/
def Fresh (S : LinkedSearch α) (a b : α) : Prop := steps a b ∧ (b ∉ S.seen ∨ b = again)

/-- The pending node `a` is taken. It may stay pending, as it does when it was put there twice. -/
structure Expands (S S' : LinkedSearch α) (a : α) : Prop where
  mem_pending : a ∈ S.pending
  mem_seen : ∀ b, b ∈ S'.seen ↔ b ∈ S.seen ∨ S.Fresh steps again a b
  pending_of_fresh : ∀ b, S.Fresh steps again a b → b ∈ S'.pending
  pending_of_ne : ∀ b ∈ S.pending, b ≠ a → b ∈ S'.pending
  of_pending : ∀ b ∈ S'.pending, b ∈ S.pending ∨ S.Fresh steps again a b
  link_of_fresh : ∀ b, S.Fresh steps again a b → S'.link b = a
  link_of_not_fresh : ∀ b, ¬ S.Fresh steps again a b → S'.link b = S.link b

/-- What holds of any search: nothing is seen that cannot be reached, and what was taken has its
successors seen. -/
structure Explored (S : LinkedSearch α) : Prop where
  start_mem : start ∈ S.seen
  pending_sub : ∀ a ∈ S.pending, a ∈ S.seen
  reachable : ∀ a ∈ S.seen, Reachable steps start a
  closed : ∀ a ∈ S.seen, a ∈ S.pending ∨ ∀ b, steps a b → b ∈ S.seen
  link_mem : ∀ a ∈ S.seen, S.link a ∈ S.seen

/-- `again` has not been taken yet: no link leads to it, and all links lead back to the start. -/
structure Treelike (S : LinkedSearch α) : Prop where
  around : ∀ a ∈ S.seen, Around steps again start a
  link_ne : ∀ a ∈ S.seen, a ≠ again → S.link a ≠ again
  settles : ∀ a ∈ S.seen, Settles S.link a

/-- `again` has been taken: what lies around it is done with and keeps its links, what lies beyond
it is linked among itself and to `again`, and the link of `again` is going to lead there too. -/
structure Split (S : LinkedSearch α) : Prop where
  around_again : Around steps again start again
  around_mem : ∀ a, Around steps again start a → a ∈ S.seen
  around_link : ∀ a, Around steps again start a → a ≠ again →
    Around steps again start (S.link a) ∧ S.link a ≠ again
  around_settles : ∀ a, Around steps again start a → a ≠ again → Settles S.link a
  around_done : ∀ a ∈ S.pending, Around steps again start a → a = again
  beyond_link : ∀ a ∈ S.seen, ¬ Around steps again start a →
    (S.link a = again ∨ ¬ Around steps again start (S.link a)) ∧ S.link a ≠ a
  circle : (∀ a ∈ S.seen, Around steps again start a) ∨ ¬ Around steps again start (S.link again) ∨
    ∃ a ∈ S.pending, ¬ Around steps again start a ∧ steps a again

variable {steps again start} {S S' : LinkedSearch α} {a b : α}

theorem Around.reachable (h : Around steps again start a) : Reachable steps start a :=
  Relation.ReflTransGen.mono (fun _ _ hab => hab.2) _ _ h

/-- Where `again` cannot be reached, no way passes through it. -/
theorem Reachable.around (hagain : ¬ Reachable steps start again) (h : Reachable steps start a) :
    Around steps again start a := by
  induction h with
  | refl => exact .refl
  | @tail b c hb hbc ih => exact ih.tail ⟨fun heq => hagain (heq ▸ hb), hbc⟩

theorem not_fresh_of_seen (hb : b ∈ S.seen) (hne : b ≠ again) : ¬ S.Fresh steps again a b :=
  fun h => h.2.elim (fun hnot => hnot hb) hne

theorem Expands.seen_mono (h : Expands steps again S S' a) (hb : b ∈ S.seen) : b ∈ S'.seen :=
  (h.mem_seen b).2 (.inl hb)

/-- Nodes already seen keep their links, `again` excepted. -/
theorem Expands.link_eq (h : Expands steps again S S' a) (hb : b ∈ S.seen) (hne : b ≠ again) :
    S'.link b = S.link b :=
  h.link_of_not_fresh b (not_fresh_of_seen hb hne)

/-! ## What is explored -/

theorem Explored.expands (hE : S.Explored steps start) (h : Expands steps again S S' a) :
    S'.Explored steps start := by
  have hseen := hE.pending_sub a h.mem_pending
  refine ⟨h.seen_mono hE.start_mem, ?_, ?_, ?_, ?_⟩
  · intro b hb
    rcases h.of_pending b hb with hb | hb
    · exact h.seen_mono (hE.pending_sub b hb)
    · exact (h.mem_seen b).2 (.inr hb)
  · intro b hb
    rcases (h.mem_seen b).1 hb with hb | hb
    · exact hE.reachable b hb
    · exact (hE.reachable a hseen).tail hb.1
  · intro b hb
    rcases (h.mem_seen b).1 hb with hb | hb
    · by_cases hba : b = a
      · -- the successors of the node that was taken were seen before or are entered now
        refine .inr fun c hc => (h.mem_seen c).2 ?_
        rw [hba] at hc
        by_cases hcs : c ∈ S.seen
        · exact .inl hcs
        · exact .inr ⟨hc, .inl hcs⟩
      · rcases hE.closed b hb with hp | hc
        · exact .inl (h.pending_of_ne b hp hba)
        · exact .inr fun c hbc => h.seen_mono (hc c hbc)
    · exact .inl (h.pending_of_fresh b hb)
  · intro b hb
    by_cases hf : S.Fresh steps again a b
    · rw [h.link_of_fresh b hf]
      exact h.seen_mono hseen
    · rw [h.link_of_not_fresh b hf]
      exact h.seen_mono (hE.link_mem b (((h.mem_seen b).1 hb).resolve_right hf))

/-- A search with nothing pending has seen all that can be reached. -/
theorem Explored.mem_seen_iff (hE : S.Explored steps start) (hempty : ∀ a, a ∉ S.pending) :
    a ∈ S.seen ↔ Reachable steps start a := by
  refine ⟨hE.reachable a, fun h => ?_⟩
  induction h with
  | refl => exact hE.start_mem
  | @tail b c _ hbc ih => exact (hE.closed b ih).resolve_left (hempty b) c hbc

/-! ## Until `again` is taken -/

theorem Treelike.settles_of_expands (hE : S.Explored steps start)
    (hT : S.Treelike steps again start) (h : Expands steps again S S' a) (hb : b ∈ S.seen)
    (hne : b ≠ again) : Settles S'.link b := by
  refine Settles.congr (P := fun c => c ∈ S.seen ∧ c ≠ again) ?_ ⟨hb, hne⟩ (hT.settles b hb)
  rintro c ⟨hc, hcne⟩
  exact ⟨⟨hE.link_mem c hc, hT.link_ne c hc hcne⟩, h.link_eq hc hcne⟩

theorem Treelike.expands (hE : S.Explored steps start) (hT : S.Treelike steps again start)
    (h : Expands steps again S S' a) (hne : a ≠ again) : S'.Treelike steps again start := by
  have hseen := hE.pending_sub a h.mem_pending
  refine ⟨?_, ?_, ?_⟩
  · intro b hb
    rcases (h.mem_seen b).1 hb with hb | hb
    · exact hT.around b hb
    · exact (hT.around a hseen).tail ⟨hne, hb.1⟩
  · intro b hb hbne
    by_cases hf : S.Fresh steps again a b
    · rwa [h.link_of_fresh b hf]
    · rw [h.link_of_not_fresh b hf]
      exact hT.link_ne b (((h.mem_seen b).1 hb).resolve_right hf) hbne
  · intro b hb
    by_cases hf : S.Fresh steps again a b
    · rw [← settles_apply_iff, h.link_of_fresh b hf]
      exact hT.settles_of_expands hE h hseen hne
    · have hb := ((h.mem_seen b).1 hb).resolve_right hf
      by_cases hba : b = again
      · -- `again` was seen and keeps its link, which is itself or another node seen
        by_cases hself : S.link b = b
        · exact .of_fixed ((h.link_of_not_fresh b hf).trans hself)
        · rw [← settles_apply_iff, h.link_of_not_fresh b hf]
          exact hT.settles_of_expands hE h (hE.link_mem b hb) (hba ▸ hself)
      · exact hT.settles_of_expands hE h hb hba

/-! ## From then on -/

/-- When nothing else is pending, what lies around `again` has been seen. -/
theorem Explored.mem_of_around (hE : S.Explored steps start) (hlast : ∀ a ∈ S.pending, a = again)
    (h : Around steps again start a) : a ∈ S.seen := by
  induction h with
  | refl => exact hE.start_mem
  | @tail b c _ hbc ih =>
    exact (hE.closed b ih).resolve_left (fun hp => hbc.1 (hlast b hp)) c hbc.2

/-- **Taking `again` splits the search**, if there is nothing else to take. -/
theorem Treelike.split (hE : S.Explored steps start) (hT : S.Treelike steps again start)
    (hback : ∀ b, steps again b → steps b again) (hlast : ∀ a ∈ S.pending, a = again)
    (h : Expands steps again S S' again) : S'.Split steps again start := by
  have hagain := hT.around again (hE.pending_sub again h.mem_pending)
  have hmem : ∀ b, Around steps again start b → b ∈ S.seen := fun b => hE.mem_of_around hlast
  -- what is new lies beyond `again`
  have hnew : ∀ b ∈ S'.seen, ¬ Around steps again start b → S.Fresh steps again again b := by
    intro b hb hbeyond
    exact ((h.mem_seen b).1 hb).resolve_left fun hb => hbeyond (hT.around b hb)
  refine ⟨hagain, fun b hb => h.seen_mono (hmem b hb), ?_, ?_, ?_, ?_, ?_⟩
  · intro b hb hne
    rw [h.link_eq (hmem b hb) hne]
    exact ⟨hT.around _ (hE.link_mem b (hmem b hb)), hT.link_ne b (hmem b hb) hne⟩
  · exact fun b hb hne => hT.settles_of_expands hE h (hmem b hb) hne
  · intro b hb hbar
    rcases h.of_pending b hb with hb | hb
    · exact hlast b hb
    · exact hb.2.resolve_left fun hnot => hnot (hmem b hbar)
  · intro b hb hbeyond
    rw [h.link_of_fresh b (hnew b hb hbeyond)]
    exact ⟨.inl rfl, fun heq => hbeyond (heq ▸ hagain)⟩
  · by_cases hall : ∀ b ∈ S'.seen, Around steps again start b
    · exact .inl hall
    · push Not at hall
      obtain ⟨b, hb, hbeyond⟩ := hall
      have hf := hnew b hb hbeyond
      exact .inr (.inr ⟨b, h.pending_of_fresh b hf, hbeyond, hback b hf.1⟩)

theorem Split.expands (hirr : ∀ b, ¬ steps b b) (hback : ∀ b, steps again b → steps b again)
    (hE : S.Explored steps start) (hS : S.Split steps again start)
    (h : Expands steps again S S' a) : S'.Split steps again start := by
  have hlink : ∀ b, Around steps again start b → b ≠ again → S'.link b = S.link b :=
    fun b hb hne => h.link_eq (hS.around_mem b hb) hne
  have hdone := hS.around_done a h.mem_pending
  refine ⟨hS.around_again, fun b hb => h.seen_mono (hS.around_mem b hb), ?_, ?_, ?_, ?_, ?_⟩
  · intro b hb hne
    rw [hlink b hb hne]
    exact hS.around_link b hb hne
  · intro b hb hne
    refine Settles.congr (P := fun c => Around steps again start c ∧ c ≠ again) ?_ ⟨hb, hne⟩
      (hS.around_settles b hb hne)
    rintro c ⟨hc, hcne⟩
    exact ⟨hS.around_link c hc hcne, hlink c hc hcne⟩
  · intro b hb hbar
    rcases h.of_pending b hb with hb | hb
    · exact hS.around_done b hb hbar
    · exact hb.2.resolve_left fun hnot => hnot (hS.around_mem b hbar)
  · intro b hb hbeyond
    by_cases hf : S.Fresh steps again a b
    · rw [h.link_of_fresh b hf]
      refine ⟨?_, fun heq => hirr b (heq ▸ hf.1)⟩
      by_cases ha : Around steps again start a
      · exact .inl (hdone ha)
      · exact .inr ha
    · rw [h.link_of_not_fresh b hf]
      exact hS.beyond_link b (((h.mem_seen b).1 hb).resolve_right hf) hbeyond
  · rcases hS.circle with hall | hlinked | ⟨b, hb, hbeyond, hba⟩
    · by_cases hall' : ∀ b ∈ S'.seen, Around steps again start b
      · exact .inl hall'
      · -- the first node beyond `again` is entered from `again`
        push Not at hall'
        obtain ⟨b, hb, hbeyond⟩ := hall'
        have hf := ((h.mem_seen b).1 hb).resolve_left fun hb => hbeyond (hall b hb)
        have ha := hdone (hall a (hE.pending_sub a h.mem_pending))
        exact .inr (.inr ⟨b, h.pending_of_fresh b hf, hbeyond, hback b (ha ▸ hf.1)⟩)
    · refine .inr (.inl ?_)
      by_cases hf : S.Fresh steps again a again
      · rw [h.link_of_fresh again hf]
        intro ha
        rw [hdone ha] at hf
        exact hirr again hf.1
      · rwa [h.link_of_not_fresh again hf]
    · by_cases hb' : b = a
      · -- the node beyond `again` is taken and closes the circle
        refine .inr (.inl ?_)
        rw [h.link_of_fresh again ⟨hb' ▸ hba, .inr rfl⟩, ← hb']
        exact hbeyond
      · exact .inr (.inr ⟨b, h.pending_of_ne b hb hb', hbeyond, hba⟩)

theorem Split.not_settles (hE : S.Explored steps start) (hS : S.Split steps again start)
    (hempty : ∀ a, a ∉ S.pending) (ha : a ∈ S.seen) (hbeyond : ¬ Around steps again start a) :
    ¬ Settles S.link a := by
  have hcircle : ¬ Around steps again start (S.link again) := by
    rcases hS.circle with hall | h | ⟨b, hb, -⟩
    · exact absurd (hall a ha) hbeyond
    · exact h
    · exact absurd hb (hempty b)
  refine not_settles_of_invariant
    (P := fun b => b ∈ S.seen ∧ (b = again ∨ ¬ Around steps again start b)) ?_
    ⟨ha, .inr hbeyond⟩
  rintro b ⟨hb, rfl | hbb⟩
  · exact ⟨⟨hE.link_mem b hb, .inr hcircle⟩, fun heq => hcircle (heq.symm ▸ hS.around_again)⟩
  · exact ⟨⟨hE.link_mem b hb, (hS.beyond_link b hb hbb).1⟩, (hS.beyond_link b hb hbb).2⟩

/-- **Following the links when the search is over** comes to an end from exactly the nodes that are
reached without passing through `again`. -/
theorem settles_iff_around (hE : S.Explored steps start)
    (h : S.Treelike steps again start ∨ S.Split steps again start) (hempty : ∀ a, a ∉ S.pending)
    (ha : a ∈ S.seen) (hne : a ≠ again) : Settles S.link a ↔ Around steps again start a := by
  rcases h with hT | hS
  · exact ⟨fun _ => hT.around a ha, fun _ => hT.settles a ha⟩
  · refine ⟨fun hset => ?_, fun hbar => hS.around_settles a hbar hne⟩
    by_contra hbeyond
    exact hS.not_settles hE hempty ha hbeyond hset

end LinkedSearch

end Zelda
