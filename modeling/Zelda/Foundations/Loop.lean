import Mathlib.Tactic

/-!
# Loops that leave by a `break`

A `while (true)` loop is given by its body, which either goes round again in a new state or
leaves with a result. `run body n s` makes at most `n` passes, so it is executable; what the loop
does is what `run` does for some number of passes (`Returns`, `Terminates`).

The rules are the usual ones: an invariant carries to the result (`Returns.of_invariant`), a
measure that every pass decreases gives termination (`terminates_of_measure`), and an invariant
under which no pass leaves gives divergence (`not_terminates_of_invariant`).
-/

namespace Zelda.Loop

variable {σ ρ : Type*} {body : σ → σ ⊕ ρ}

/-- At most `n` passes of the loop: its result, or `none` when it is still going round. -/
def run (body : σ → σ ⊕ ρ) : ℕ → σ → Option ρ
  | 0, _ => none
  | n + 1, s =>
    match body s with
    | .inl s' => run body n s'
    | .inr r => some r

/-- Started in `s`, the loop leaves with `r`. -/
def Returns (body : σ → σ ⊕ ρ) (s : σ) (r : ρ) : Prop := ∃ n, run body n s = some r

/-- Started in `s`, the loop leaves. -/
def Terminates (body : σ → σ ⊕ ρ) (s : σ) : Prop := ∃ r, Returns body s r

theorem run_succ_of_inl {s s' : σ} (h : body s = .inl s') (n : ℕ) :
    run body (n + 1) s = run body n s' := by
  simp only [run, h]

theorem run_succ_of_inr {s : σ} {r : ρ} (h : body s = .inr r) (n : ℕ) :
    run body (n + 1) s = some r := by
  simp only [run, h]

/-- More passes do not change a result that is already there. -/
theorem run_mono {m n : ℕ} (hmn : m ≤ n) {s : σ} {r : ρ} (h : run body m s = some r) :
    run body n s = some r := by
  induction m generalizing n s with
  | zero => simp [run] at h
  | succ m ih =>
    obtain ⟨n, rfl⟩ : ∃ k, n = k + 1 := ⟨n - 1, by omega⟩
    cases hb : body s with
    | inl s' =>
      rw [run_succ_of_inl hb] at h ⊢
      exact ih (by omega) h
    | inr r' =>
      rw [run_succ_of_inr hb] at h ⊢
      exact h

theorem Returns.unique {s : σ} {r r' : ρ} (h : Returns body s r) (h' : Returns body s r') :
    r = r' := by
  obtain ⟨m, hm⟩ := h
  obtain ⟨n, hn⟩ := h'
  have hm' := run_mono (Nat.le_add_right m n) hm
  rw [run_mono (Nat.le_add_left n m) hn] at hm'
  exact (Option.some.inj hm').symm

theorem returns_iff_of_inl {s s' : σ} (h : body s = .inl s') {r : ρ} :
    Returns body s r ↔ Returns body s' r := by
  constructor
  · rintro ⟨n, hn⟩
    cases n with
    | zero => simp [run] at hn
    | succ n => exact ⟨n, by rwa [run_succ_of_inl h] at hn⟩
  · rintro ⟨n, hn⟩
    exact ⟨n + 1, by rwa [run_succ_of_inl h]⟩

theorem returns_of_inr {s : σ} {r : ρ} (h : body s = .inr r) : Returns body s r :=
  ⟨1, run_succ_of_inr h 0⟩

/-- **The invariant rule**: what every pass preserves holds where the loop leaves. -/
theorem Returns.of_invariant {P : σ → Prop} {Q : ρ → Prop}
    (hstep : ∀ s s', P s → body s = .inl s' → P s')
    (hexit : ∀ s r, P s → body s = .inr r → Q r) {s : σ} {r : ρ} (hs : P s)
    (h : Returns body s r) : Q r := by
  obtain ⟨n, hn⟩ := h
  induction n generalizing s with
  | zero => simp [run] at hn
  | succ n ih =>
    cases hb : body s with
    | inl s' =>
      rw [run_succ_of_inl hb] at hn
      exact ih (hstep s s' hs hb) hn
    | inr r' =>
      rw [run_succ_of_inr hb] at hn
      exact Option.some.inj hn ▸ hexit s r' hs hb

/-- A measure that every pass decreases bounds the number of passes. -/
theorem exists_run_of_measure {P : σ → Prop} (μ : σ → ℕ)
    (hstep : ∀ s s', P s → body s = .inl s' → P s' ∧ μ s' < μ s) {s : σ} (hs : P s) {n : ℕ}
    (hn : μ s < n) : ∃ r, run body n s = some r := by
  induction n generalizing s with
  | zero => omega
  | succ n ih =>
    cases hb : body s with
    | inl s' =>
      obtain ⟨hs', hlt⟩ := hstep s s' hs hb
      rw [run_succ_of_inl hb]
      exact ih hs' (by omega)
    | inr r => exact ⟨r, run_succ_of_inr hb n⟩

/-- **The measure rule**: a loop whose passes all decrease a measure leaves. -/
theorem terminates_of_measure {P : σ → Prop} (μ : σ → ℕ)
    (hstep : ∀ s s', P s → body s = .inl s' → P s' ∧ μ s' < μ s) {s : σ} (hs : P s) :
    Terminates body s := by
  obtain ⟨r, hr⟩ := exists_run_of_measure μ hstep hs (Nat.lt_succ_self (μ s))
  exact ⟨r, _, hr⟩

/-- **The divergence rule**: a loop that never leaves from the states of an invariant does not
terminate. -/
theorem not_terminates_of_invariant {P : σ → Prop}
    (hstep : ∀ s, P s → ∃ s', body s = .inl s' ∧ P s') {s : σ} (hs : P s) :
    ¬ Terminates body s := by
  rintro ⟨r, n, hn⟩
  induction n generalizing s with
  | zero => simp [run] at hn
  | succ n ih =>
    obtain ⟨s', hb, hs'⟩ := hstep s hs
    rw [run_succ_of_inl hb] at hn
    exact ih hs' hn

/-- The same loop on other states. -/
theorem run_map {σ' ρ' : Type*} {body' : σ' → σ' ⊕ ρ'} (f : σ → σ') (g : ρ → ρ')
    (h : ∀ s, body' (f s) = (body s).map f g) (n : ℕ) (s : σ) :
    run body' n (f s) = (run body n s).map g := by
  induction n generalizing s with
  | zero => rfl
  | succ n ih =>
    cases hb : body s with
    | inl s' =>
      rw [run_succ_of_inl hb, run_succ_of_inl (by rw [h, hb, Sum.map_inl]), ih]
    | inr r =>
      rw [run_succ_of_inr hb, run_succ_of_inr (by rw [h, hb, Sum.map_inr]), Option.map_some]

/-! ## The states of a loop -/

/-- From `s` the loop comes to `s'`. -/
def Reaches (body : σ → σ ⊕ ρ) : σ → σ → Prop :=
  Relation.ReflTransGen fun s s' => body s = .inl s'

/-- A loop that leaves does so from some state it comes to. -/
theorem Returns.exists_last {s : σ} {r : ρ} (h : Returns body s r) :
    ∃ s', Reaches body s s' ∧ body s' = .inr r := by
  obtain ⟨n, hn⟩ := h
  induction n generalizing s with
  | zero => simp [run] at hn
  | succ n ih =>
    cases hb : body s with
    | inl s₁ =>
      rw [run_succ_of_inl hb] at hn
      obtain ⟨s', hs', hlast⟩ := ih hn
      exact ⟨s', hs'.head hb, hlast⟩
    | inr r' =>
      rw [run_succ_of_inr hb] at hn
      exact ⟨s, .refl, Option.some.inj hn ▸ hb⟩

theorem Reaches.of_invariant {P : σ → Prop} (hstep : ∀ s s', P s → body s = .inl s' → P s')
    {s s' : σ} (hs : P s) (h : Reaches body s s') : P s' := by
  induction h with
  | refl => exact hs
  | tail _ hb ih => exact hstep _ _ ih hb

/-- What the loop comes to, it comes to on the way to the state it leaves from. -/
theorem Reaches.of_last {s s₁ s₂ : σ} {r : ρ} (h₁ : Reaches body s s₁) (h₂ : Reaches body s s₂)
    (hlast : body s₂ = .inr r) : Reaches body s₁ s₂ := by
  induction h₁ with
  | refl => exact h₂
  | tail _ hb ih =>
    rcases ih.cases_head with rfl | ⟨s₃, hs₃, h₃⟩
    · rw [hlast] at hb
      cases hb
    · rw [hb] at hs₃
      exact Sum.inl.inj hs₃ ▸ h₃

end Zelda.Loop
