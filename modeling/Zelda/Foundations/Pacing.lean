import Mathlib.Tactic

/-!
# Two actions paced by one deadline

Something rests, steps or aims, and gets turns at times that do not go back. From rest it may step,
and then it waits for a period before it rests again; or it may aim, and then it waits for a period
before it strikes, or gives up, and rests again. Both waits share one deadline, which is left as it
is while it rests.

In a run of such turns, between which it may also be taken away (`Run`), two steps are at least a
period apart, and so are two strikes (`Run.spaced`). The times are arbitrary: all that is used of them
is that adding the period keeps their order.
-/

namespace Zelda.Pacing

inductive Phase
  | resting
  | stepping
  | aiming
  deriving DecidableEq

/-- What it is doing and when it may go on. -/
structure Timer (α : Type*) where
  phase : Phase
  deadline : α

inductive Act
  | step
  | strike
  deriving DecidableEq

variable {α : Type*}

/-- A turn at time `t`, with what is done in it. -/
inductive Turn [Add α] [LE α] (period : α) : Timer α → α → Option Act → Timer α → Prop
  | stay (s : Timer α) (t : α) : Turn period s t none s
  | step (d t : α) : Turn period ⟨.resting, d⟩ t (some .step) ⟨.stepping, t + period⟩
  | aim (d t : α) : Turn period ⟨.resting, d⟩ t none ⟨.aiming, t + period⟩
  | rest {d t : α} (hd : d ≤ t) : Turn period ⟨.stepping, d⟩ t none ⟨.resting, d⟩
  | strike {d t : α} (hd : d ≤ t) : Turn period ⟨.aiming, d⟩ t (some .strike) ⟨.resting, d⟩
  | giveUp {d t : α} (hd : d ≤ t) : Turn period ⟨.aiming, d⟩ t none ⟨.resting, d⟩

/-- A run of `n` moments: at each nothing is done, and the timer is kept or taken away, or there is a
turn. -/
structure Run [Add α] [LE α] (period : α) (n : ℕ) (s : ℕ → Option (Timer α)) (time : ℕ → Option α)
    (act : ℕ → Option Act) : Prop where
  next : ∀ i < n, (act i = none ∧ (s (i + 1) = none ∨ s (i + 1) = s i)) ∨
    ∃ t a b, time i = some t ∧ s i = some a ∧ s (i + 1) = some b ∧ Turn period a t (act i) b
  mono : ∀ i j t t', i < j → j < n → time i = some t → time j = some t' → t ≤ t'

/-- A time has been read before the moment `j` that is not before `T`. -/
def Past [LE α] (time : ℕ → Option α) (j : ℕ) (T : α) : Prop :=
  ∃ k < j, ∃ u, time k = some u ∧ T ≤ u

section

variable [LE α] {time : ℕ → Option α} {j : ℕ} {T t : α}

theorem Past.succ (h : Past time j T) : Past time (j + 1) T := by
  obtain ⟨k, hk, u, hu, hT⟩ := h
  exact ⟨k, by omega, u, hu, hT⟩

theorem past_of_le (ht : time j = some t) (h : T ≤ t) : Past time (j + 1) T :=
  ⟨j, Nat.lt_succ_self j, t, ht, h⟩

end

variable [Preorder α] [Add α] {period : α} {n : ℕ} {s : ℕ → Option (Timer α)}
  {time : ℕ → Option α} {act : ℕ → Option Act} {i j : ℕ} {T t : α} {a b : Timer α} {x : Act}

/-- What is past is not after a time that is read now. -/
theorem Run.le_of_past (h : Run period n s time act) (hj : j < n) (ht : time j = some t)
    (hpast : Past time j T) : T ≤ t := by
  obtain ⟨k, hk, u, hu, hT⟩ := hpast
  exact hT.trans (h.mono k j u t hk hj hu ht)

/-- What holds once something was done at `T`. While it waits after a step the deadline is a period
after `T`, and from then on so is the time. Whenever it aims the deadline is a period after the last
strike. -/
def After (period : α) (time : ℕ → Option α) (T : α) (j : ℕ) (a : Timer α) : Act → Prop
  | .step => Past time j T ∧
      if a.phase = .stepping then T + period ≤ a.deadline else Past time j (T + period)
  | .strike => Past time j T ∧ (a.phase = .aiming → T + period ≤ a.deadline)

theorem After.succ (h : After period time T j a x) : After period time T (j + 1) a x := by
  cases x with
  | step =>
    refine ⟨h.1.succ, ?_⟩
    obtain ⟨-, h⟩ := h
    split_ifs at h ⊢
    · exact h
    · exact h.succ
  | strike => exact ⟨h.1.succ, h.2⟩

theorem After.past (h : After period time T j a x) : Past time j T := by
  cases x with
  | step => exact h.1
  | strike => exact h.1

/-- What holds after an action holds when it has been taken. -/
theorem Turn.after (hturn : Turn period a t (some x) b) (ht : time j = some t) :
    After period time t (j + 1) b x := by
  cases hturn with
  | step => exact ⟨past_of_le ht le_rfl, le_rfl⟩
  | strike => exact ⟨past_of_le ht le_rfl, fun h => by cases h⟩

/-- The action is not taken again before a period is over. -/
theorem After.le_of_turn (h : After period time T j a x) (hle : ∀ T', Past time j T' → T' ≤ t)
    (hturn : Turn period a t (some x) b) : T + period ≤ t := by
  cases hturn with
  | step => exact hle _ h.2
  | strike hd => exact (h.2 rfl).trans hd

variable [AddRightMono α]

/-- Every turn keeps it. -/
theorem After.turn (h : After period time T j a x) (ht : time j = some t)
    (hle : ∀ T', Past time j T' → T' ≤ t) {y : Option Act} (hturn : Turn period a t y b) :
    After period time T (j + 1) b x := by
  have hnext : T + period ≤ t + period := add_le_add_left (hle T h.past) period
  have hpast := h.past.succ
  cases hturn with
  | stay => exact h.succ
  | step =>
    cases x with
    | step => exact ⟨hpast, hnext⟩
    | strike => exact ⟨hpast, fun h => by cases h⟩
  | aim =>
    cases x with
    | step => exact ⟨hpast, h.2.succ⟩
    | strike => exact ⟨hpast, fun _ => hnext⟩
  | rest hd =>
    cases x with
    | step => exact ⟨hpast, past_of_le ht (le_trans h.2 hd)⟩
    | strike => exact ⟨hpast, fun h => by cases h⟩
  | strike =>
    cases x with
    | step => exact ⟨hpast, h.2.succ⟩
    | strike => exact ⟨hpast, fun h => by cases h⟩
  | giveUp =>
    cases x with
    | step => exact ⟨hpast, h.2.succ⟩
    | strike => exact ⟨hpast, fun h => by cases h⟩

/-- What holds after an action holds for the rest of the run, as long as the timer is there. -/
theorem Run.after (h : Run period n s time act) (hi : i < n) {x : Act} (hx : act i = some x)
    (ht : time i = some t) (hij : i < j) (hj : j ≤ n) (ha : s j = some a) :
    After period time t j a x := by
  induction j, hij using Nat.le_induction generalizing a with
  | base =>
    rcases h.next i hi with ⟨hnone, -⟩ | ⟨t', a', b, ht', -, hb, hturn⟩
    · cases hnone.symm.trans hx
    · obtain rfl := Option.some.inj (ht.symm.trans ht')
      obtain rfl := Option.some.inj (ha.symm.trans hb)
      rw [hx] at hturn
      exact hturn.after ht
  | succ j hij ih =>
    rcases h.next j (by omega) with ⟨-, hgone | hsame⟩ | ⟨u, a', b, hu, ha', hb, hturn⟩
    · cases hgone.symm.trans ha
    · exact (ih (by omega) (hsame.symm.trans ha)).succ
    · obtain rfl := Option.some.inj (ha.symm.trans hb)
      exact (ih (by omega) ha').turn hu (fun _ => h.le_of_past (by omega) hu) hturn

/-- **Two steps are at least a period apart, and so are two strikes.** -/
theorem Run.spaced (h : Run period n s time act) (hij : i < j) (hj : j < n) {x : Act}
    (hi : act i = some x) (hj' : act j = some x) :
    ∃ t t', time i = some t ∧ time j = some t' ∧ t + period ≤ t' := by
  rcases h.next i (by omega) with ⟨hnone, -⟩ | ⟨t, a, b, ht, -, -, -⟩
  · cases hnone.symm.trans hi
  · rcases h.next j hj with ⟨hnone, -⟩ | ⟨t', a', b', ht', ha', -, hturn⟩
    · cases hnone.symm.trans hj'
    · have hafter := h.after (by omega) hi ht hij hj.le ha'
      rw [hj'] at hturn
      exact ⟨t, t', ht, ht', hafter.le_of_turn (fun _ => h.le_of_past hj ht') hturn⟩

end Zelda.Pacing
