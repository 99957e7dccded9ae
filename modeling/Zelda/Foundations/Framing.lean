import Mathlib.Tactic

/-!
# Self-delimiting frames in a stream

A frame format says, once enough of a stream is there, how long the first frame is going to be.
`split` cuts the complete frames off the front of a stream and keeps the rest for later.

* `split_append`: the frames of a stream that arrives in two parts are those of the first part,
  followed by those of what it left over with the second part behind it.
* `feedAll_eq_split`: a receiver that keeps the left-over and splits again at every chunk sees the
  frames of the whole stream, however it was cut.
* `split_flatten`: the stream of a list of well-formed frames splits into these frames.
-/

namespace Zelda.Framing

variable {α : Type*}

/-- A way to announce the length of the first frame of a stream. More input does not change an
announcement that was made. -/
structure Format (α : Type*) where
  announced : List α → Option ℕ
  stable : ∀ {l n}, announced l = some n → ∀ m, announced (l ++ m) = some n

/-- The length of the first frame, when it is complete and not empty. -/
def Format.first (F : Format α) (l : List α) : Option ℕ :=
  (F.announced l).bind fun n => if 0 < n ∧ n ≤ l.length then some n else none

variable (F : Format α)

theorem Format.first_eq_some {l : List α} {n : ℕ} :
    F.first l = some n ↔ F.announced l = some n ∧ 0 < n ∧ n ≤ l.length := by
  simp only [first, Option.bind_eq_some_iff, Option.ite_none_right_eq_some, Option.some.injEq]
  constructor
  · rintro ⟨k, hk, hle, rfl⟩
    exact ⟨hk, hle⟩
  · rintro ⟨hn, hle⟩
    exact ⟨n, hn, hle, rfl⟩

theorem Format.first_append {l : List α} {n : ℕ} (h : F.first l = some n) (m : List α) :
    F.first (l ++ m) = some n := by
  obtain ⟨ha, hpos, hle⟩ := F.first_eq_some.1 h
  refine F.first_eq_some.2 ⟨F.stable ha m, hpos, ?_⟩
  rw [List.length_append]
  omega

/-- The complete frames at the front of a stream, and what is left. -/
def split (l : List α) : List (List α) × List α :=
  match _h : F.first l with
  | none => ([], l)
  | some n => (l.take n :: (split (l.drop n)).1, (split (l.drop n)).2)
termination_by l.length
decreasing_by
  all_goals
    obtain ⟨-, hpos, hle⟩ := F.first_eq_some.1 ‹F.first l = some n›
    rw [List.length_drop]
    omega

theorem split_of_none {l : List α} (h : F.first l = none) : split F l = ([], l) := by
  rw [split]
  split
  · rfl
  · simp_all

theorem split_of_some {l : List α} {n : ℕ} (h : F.first l = some n) :
    split F l = (l.take n :: (split F (l.drop n)).1, (split F (l.drop n)).2) := by
  rw [split]
  split
  · simp_all
  · rename_i k hk
    obtain rfl : k = n := by
      rw [h] at hk
      exact (Option.some.inj hk).symm
    rfl

/-- Induction along the frames of a stream. -/
theorem split_induction {P : List α → Prop} (none : ∀ l, F.first l = none → P l)
    (some : ∀ l n, F.first l = some n → P (l.drop n) → P l) (l : List α) : P l := by
  induction l using split.induct (F := F) with
  | case1 l h => exact none l h
  | case2 l n h ih => exact some l n h ih

/-- **Splitting is incremental.** -/
theorem split_append (l m : List α) :
    split F (l ++ m) =
      ((split F l).1 ++ (split F ((split F l).2 ++ m)).1, (split F ((split F l).2 ++ m)).2) := by
  induction l using split_induction F with
  | none l h => simp [split_of_none F h]
  | some l n h ih =>
    obtain ⟨-, -, hle⟩ := F.first_eq_some.1 h
    rw [split_of_some F h, split_of_some F (F.first_append h m), List.take_append_of_le_length hle,
      List.drop_append_of_le_length hle, ih]
    rfl

/-- The frames and the left-over make up the stream. -/
theorem split_flatten_append (l : List α) : (split F l).1.flatten ++ (split F l).2 = l := by
  induction l using split_induction F with
  | none l h => simp [split_of_none F h]
  | some l n h ih =>
    rw [split_of_some F h]
    simp only [List.flatten_cons, List.append_assoc, ih]
    exact List.take_append_drop n l

/-- No complete frame is left over. -/
theorem first_split_snd (l : List α) : F.first (split F l).2 = none := by
  induction l using split_induction F with
  | none l h => simpa [split_of_none F h] using h
  | some l n h ih => rwa [split_of_some F h]

/-! ## Streams of well-formed frames -/

/-- A frame that announces its own length. -/
def IsFrame (f : List α) : Prop := F.announced f = some f.length ∧ f ≠ []

theorem first_of_isFrame {f : List α} (hf : IsFrame F f) (m : List α) :
    F.first (f ++ m) = some f.length := by
  refine F.first_eq_some.2 ⟨F.stable hf.1 m, List.length_pos_iff.2 hf.2, ?_⟩
  rw [List.length_append]
  omega

/-- **A stream of frames splits into its frames**, whatever follows them. -/
theorem split_flatten {fs : List (List α)} (hfs : ∀ f ∈ fs, IsFrame F f) (m : List α) :
    split F (fs.flatten ++ m) = (fs ++ (split F m).1, (split F m).2) := by
  induction fs with
  | nil => simp
  | cons f fs ih =>
    have hf := hfs f List.mem_cons_self
    have htail := ih fun g hg => hfs g (List.mem_cons_of_mem f hg)
    rw [List.flatten_cons, List.append_assoc, split_of_some F (first_of_isFrame F hf _),
      List.take_left, List.drop_left, htail]
    rfl

theorem first_nil : F.first [] = none := by
  rw [Option.eq_none_iff_forall_ne_some]
  intro n h
  obtain ⟨-, hpos, hle⟩ := F.first_eq_some.1 h
  exact absurd hle (Nat.not_le.2 hpos)

theorem split_flatten_eq {fs : List (List α)} (hfs : ∀ f ∈ fs, IsFrame F f) :
    split F fs.flatten = (fs, []) := by
  have h := split_flatten F hfs []
  rwa [split_of_none F (first_nil F), List.append_nil, List.append_nil] at h

/-- What has arrived of a stream of frames makes up the first of them. -/
theorem split_prefix {fs : List (List α)} (hfs : ∀ f ∈ fs, IsFrame F f) {l : List α}
    (h : l <+: fs.flatten) : (split F l).1 <+: fs := by
  obtain ⟨m, hm⟩ := h
  have hall := split_flatten_eq F hfs
  rw [← hm, split_append] at hall
  exact ⟨_, congrArg Prod.fst hall⟩

/-! ## Receiving in chunks -/

/-- A receiver that keeps what the last split left over. -/
def feedAll : List α → List (List α) → List (List α) × List α
  | pending, [] => ([], pending)
  | pending, c :: cs =>
    let r := split F (pending ++ c)
    (r.1 ++ (feedAll r.2 cs).1, (feedAll r.2 cs).2)

/-- **The frames do not depend on how the stream was cut.** -/
theorem feedAll_eq_split (cs : List (List α)) {pending : List α}
    (h : F.first pending = none) :
    feedAll F pending cs = split F (pending ++ cs.flatten) := by
  induction cs generalizing pending with
  | nil => simp [feedAll, split_of_none F h]
  | cons c cs ih =>
    rw [feedAll, ih (first_split_snd F _), List.flatten_cons, ← List.append_assoc,
      split_append F (pending ++ c)]

end Zelda.Framing
