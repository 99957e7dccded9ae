import Mathlib.Algebra.Order.Monoid.Defs
import Zelda.Foundations.Pacing

/-!
# When paced work is over

Something that is paced by a timer (`Foundations/Pacing`) has a number of things left to do. From
rest it does one of them and waits, or it aims and waits; when it strikes, one more is done. It gets
its turns no later than `δ` after one another.

While there is something left to do it goes on, so that each of the things takes two turns and a
period. Hence there is a time by which it is all over (`due`): no turn puts it off
(`Toil.due_le`), and in a run no turn is later with something left to do (`Work.over`).
-/

namespace Zelda.Pacing

variable {α : Type*}

/-- A turn at time `t` of something with `K` things left to do, after which there are `K'`. -/
inductive Toil [Add α] [LE α] [LT α] (period : α) : Timer α → ℕ → α → Timer α → ℕ → Prop
  | wait {a : Timer α} {t : α} (hphase : a.phase ≠ .resting) (ht : t < a.deadline) (K : ℕ) :
      Toil period a K t a K
  | step (d t : α) {K K' : ℕ} (hK : K' < K) :
      Toil period ⟨.resting, d⟩ K t ⟨.stepping, t + period⟩ K'
  | aim (d t : α) {K : ℕ} (hK : 0 < K) : Toil period ⟨.resting, d⟩ K t ⟨.aiming, t + period⟩ K
  | rest {d t : α} (hd : d ≤ t) (K : ℕ) : Toil period ⟨.stepping, d⟩ K t ⟨.resting, d⟩ K
  | strike {d t : α} (hd : d ≤ t) {K K' : ℕ} (hK : K' < K) :
      Toil period ⟨.aiming, d⟩ K t ⟨.resting, d⟩ K'

/-- The last of the times read before a moment, which begin with `T`. -/
def latest [Max α] (time : ℕ → Option α) (T : α) : ℕ → α
  | 0 => T
  | i + 1 => (time i).elim (latest time T i) (max (latest time T i))

theorem latest_succ_of_none [Max α] {time : ℕ → Option α} {T : α} {i : ℕ} (h : time i = none) :
    latest time T (i + 1) = latest time T i := by
  rw [latest, h]
  rfl

theorem latest_succ_of_some [Max α] {time : ℕ → Option α} {T t : α} {i : ℕ} (h : time i = some t) :
    latest time T (i + 1) = max (latest time T i) t := by
  rw [latest, h]
  rfl

variable [AddCommMonoid α] [LinearOrder α] {period δ T t u : α} {K K' : ℕ} {a b : Timer α}

/-- What one of the things takes at most, from one rest to the next. -/
def lap (period δ : α) : α := δ + period + δ

/-- The last time at which there may be something left to do, if the last turn was at `u`. Who aims
has as good as done one of the things. -/
def due (period δ : α) (a : Timer α) (K : ℕ) (u : α) : α :=
  match a.phase with
  | .resting => u + K • lap period δ
  | .stepping => max a.deadline u + δ + K • lap period δ
  | .aiming => max a.deadline u + δ + (K - 1) • lap period δ

section

variable [IsOrderedAddMonoid α] (hδ : 0 ≤ δ) (hperiod : 0 ≤ period)
include hδ hperiod

theorem lap_nonneg : 0 ≤ lap period δ := add_nonneg (add_nonneg hδ hperiod) hδ

theorem nsmul_lap_le (h : K' ≤ K) : K' • lap period δ ≤ K • lap period δ :=
  nsmul_le_nsmul_left (lap_nonneg hδ hperiod) h

theorem le_due : u ≤ due period δ a K u := by
  have hlap := fun K : ℕ => nsmul_nonneg (lap_nonneg hδ hperiod) K
  unfold due
  split
  · exact le_add_of_nonneg_right (hlap K)
  · exact le_add_of_le_of_nonneg (le_add_of_le_of_nonneg (le_max_right _ _) hδ) (hlap K)
  · exact le_add_of_le_of_nonneg (le_add_of_le_of_nonneg (le_max_right _ _) hδ) (hlap (K - 1))

theorem due_mono (h : K' ≤ K) : due period δ a K' u ≤ due period δ a K u := by
  unfold due
  split
  · exact add_le_add_right (nsmul_lap_le hδ hperiod h) _
  · exact add_le_add_right (nsmul_lap_le hδ hperiod h) _
  · exact add_le_add_right (nsmul_lap_le hδ hperiod (Nat.sub_le_sub_right h 1)) _

/-- A bound that does not depend on the phase. Who aims is given one thing more to do. -/
theorem due_le_of_le (hu : u ≤ T) (hdeadline : a.deadline ≤ T)
    (hK : K ≤ K' ∨ a.phase = .aiming ∧ K ≤ K' + 1) :
    due period δ a K u ≤ T + δ + K' • lap period δ := by
  have hmax : max a.deadline u + δ ≤ T + δ := add_le_add_left (max_le hdeadline hu) δ
  have hall : a.phase ≠ .aiming → K ≤ K' := fun hphase => hK.resolve_right fun h => hphase h.1
  unfold due
  split
  · rename_i hphase
    have hK := hall (by rw [hphase]; decide)
    exact add_le_add (hu.trans (le_add_of_nonneg_right hδ)) (nsmul_lap_le hδ hperiod hK)
  · rename_i hphase
    have hK := hall (by rw [hphase]; decide)
    exact add_le_add hmax (nsmul_lap_le hδ hperiod hK)
  · exact add_le_add hmax (nsmul_lap_le hδ hperiod (by omega))

/-- What is done at the first turn after a rest is waited for until the next rest. -/
theorem wait_le (ht : t ≤ u + δ) (hK : K' < K) :
    max (t + period) (max u t) + δ + K' • lap period δ ≤ u + K • lap period δ := by
  have hu : u ≤ u + δ := le_add_of_nonneg_right hδ
  have hwait : max (t + period) (max u t) ≤ u + δ + period :=
    max_le (add_le_add_left ht period)
      (le_add_of_le_of_nonneg (max_le hu ht) hperiod)
  calc max (t + period) (max u t) + δ + K' • lap period δ
      ≤ u + δ + period + δ + K' • lap period δ := add_le_add_left (add_le_add_left hwait δ) _
    _ = u + (K' + 1) • lap period δ := by rw [succ_nsmul', lap]; simp only [add_assoc]
    _ ≤ u + K • lap period δ := add_le_add_right (nsmul_lap_le hδ hperiod hK) u

/-- **No turn puts it off.** -/
theorem Toil.due_le (h : Toil period a K t b K') (ht : t ≤ u + δ) :
    due period δ b K' (max u t) ≤ due period δ a K u := by
  have hu : u ≤ u + δ := le_add_of_nonneg_right hδ
  have hlate : ∀ d, max u t ≤ max d u + δ := fun d =>
    (max_le hu ht).trans (add_le_add_left (le_max_right d u) δ)
  cases h with
  | wait hphase hearly =>
    have hmax : max a.deadline (max u t) = max a.deadline u := by
      rw [max_left_comm, max_eq_left hearly.le, max_comm]
    unfold due
    split
    · rename_i hrest
      exact absurd hrest hphase
    · rw [hmax]
    · rw [hmax]
  | step d _ hK => exact wait_le hδ hperiod ht hK
  | aim d _ hK => exact wait_le hδ hperiod ht (Nat.sub_lt hK Nat.one_pos)
  | rest hd => exact add_le_add_left (hlate _) _
  | strike hd hK =>
    exact add_le_add (hlate _) (nsmul_lap_le hδ hperiod (Nat.le_sub_one_of_lt hK))

end

/-- A run of `n` moments of something with things left to do: at each of them it is over, it is left
alone, or has a turn; and the turns come no later than `δ` after one another. -/
structure Work (period δ T : α) (n : ℕ) (s : ℕ → Option (Timer α × ℕ)) (time : ℕ → Option α) :
    Prop where
  next : ∀ i < n, ∀ b K', s (i + 1) = some (b, K') → ∃ a K, s i = some (a, K) ∧
    (time i = none ∧ b = a ∧ K' ≤ K ∨ ∃ t, time i = some t ∧ Toil period a K t b K')
  prompt : ∀ i < n, ∀ t, time i = some t → t ≤ latest time T i + δ

variable {n i j : ℕ} {s : ℕ → Option (Timer α × ℕ)} {time : ℕ → Option α}

/-- What is over does not begin again. -/
theorem Work.none_of_none (h : Work period δ T n s time) (hij : i ≤ j) (hj : j ≤ n)
    (hnone : s i = none) : s j = none := by
  induction j, hij using Nat.le_induction with
  | base => exact hnone
  | succ j _ ih =>
    cases hb : s (j + 1) with
    | none => rfl
    | some bK =>
      obtain ⟨a, K, ha, -⟩ := h.next j hj bK.1 bK.2 hb
      cases (ih (by omega)).symm.trans ha

variable [IsOrderedAddMonoid α]

theorem Work.due_le (h : Work period δ T n s time) (hδ : 0 ≤ δ) (hperiod : 0 ≤ period)
    (hs : s 0 = some (a, K)) (hi : i ≤ n) (hb : s i = some (b, K')) :
    due period δ b K' (latest time T i) ≤ due period δ a K T := by
  induction i generalizing b K' with
  | zero =>
    obtain ⟨rfl, rfl⟩ := Prod.mk.inj (Option.some.inj (hs.symm.trans hb))
    exact le_rfl
  | succ i ih =>
    obtain ⟨b₀, K₀, hb₀, ⟨hnone, rfl, hK⟩ | ⟨t, ht, htoil⟩⟩ := h.next i hi b K' hb
    · rw [latest_succ_of_none hnone]
      exact (due_mono hδ hperiod hK).trans (ih (by omega) hb₀)
    · rw [latest_succ_of_some ht]
      exact (htoil.due_le hδ hperiod (h.prompt i hi t ht)).trans (ih (by omega) hb₀)

/-- **After a turn that is too late it is over.** -/
theorem Work.over (h : Work period δ T n s time) (hδ : 0 ≤ δ) (hperiod : 0 ≤ period)
    (hs : s 0 = some (a, K)) (ht : time i = some t) (hlate : due period δ a K T < t)
    (hij : i < j) (hj : j ≤ n) : s j = none := by
  refine h.none_of_none hij hj ?_
  cases hb : s (i + 1) with
  | none => rfl
  | some bK =>
    have hi : i + 1 ≤ n := by omega
    have hle := h.due_le hδ hperiod hs hi (b := bK.1) hb
    have hread : t ≤ latest time T (i + 1) := by
      rw [latest_succ_of_some ht]
      exact le_max_right _ _
    exact absurd (hread.trans ((le_due hδ hperiod).trans hle)) (not_le.2 hlate)

end Zelda.Pacing
