import Mathlib.Tactic

/-!
# Runs of a transition system

A system takes steps labelled by events. `Reaches step C s s'` says that some run leads from `s` to
`s'` in which every event meets the condition `C` in the state it happens in. The one rule,
`Reaches.invariant`, carries an invariant from the steps to the run.

A schedule is a list of events for a system whose steps can be computed; `Reaches.of_follows` turns
one that can be followed into a run. Where every event can happen in every state, `Throughout run P
C s es` says that the run of `es` from `s` stays in states that meet `P` and takes only steps that
meet `C`.
-/

namespace Zelda

variable {σ ε : Type*} {step : σ → ε → σ → Prop} {C : σ → ε → Prop} {I : σ → Prop}

/-- A run from one state to another whose events all meet a condition. -/
def Reaches (step : σ → ε → σ → Prop) (C : σ → ε → Prop) : σ → σ → Prop :=
  Relation.ReflTransGen fun s s' => ∃ e, C s e ∧ step s e s'

namespace Reaches

theorem refl (s : σ) : Reaches step C s s := Relation.ReflTransGen.refl

theorem single {s s' : σ} {e : ε} (hC : C s e) (h : step s e s') : Reaches step C s s' :=
  Relation.ReflTransGen.single ⟨e, hC, h⟩

theorem tail {s s' s'' : σ} {e : ε} (h : Reaches step C s s') (hC : C s' e)
    (hs : step s' e s'') : Reaches step C s s'' :=
  Relation.ReflTransGen.tail h ⟨e, hC, hs⟩

theorem mono {D : σ → ε → Prop} (hD : ∀ s e, C s e → D s e) {s s' : σ}
    (h : Reaches step C s s') : Reaches step D s s' :=
  Relation.ReflTransGen.mono (fun _ _ ⟨e, hC, hstep⟩ => ⟨e, hD _ _ hC, hstep⟩) _ _ h

/-- **The rule for runs**: what every step preserves holds wherever a run leads. -/
theorem invariant (hI : ∀ s e s', I s → C s e → step s e s' → I s') {s s' : σ}
    (h : Reaches step C s s') (hs : I s) : I s' := by
  induction h with
  | refl => exact hs
  | tail _ hstep ih =>
    obtain ⟨e, hC, hstep⟩ := hstep
    exact hI _ e _ ih hC hstep

/-- Whether every event of a schedule is possible when its turn comes. -/
def follows (possible : σ → ε → Bool) (act : σ → ε → σ) : σ → List ε → Bool
  | _, [] => true
  | s, e :: es => possible s e && follows possible act (act s e) es

theorem of_follows {possible : σ → ε → Bool} {act : σ → ε → σ}
    (hstep : ∀ s e, possible s e = true → C s e ∧ step s e (act s e)) {es : List ε} :
    ∀ {s : σ}, follows possible act s es = true → Reaches step C s (es.foldl act s) := by
  induction es with
  | nil => exact fun _ => refl _
  | cons e es ih =>
    intro s h
    obtain ⟨he, hes⟩ := Bool.and_eq_true_iff.1 h
    exact Relation.ReflTransGen.head ⟨e, hstep s e he⟩ (ih hes)

end Reaches

section Throughout

variable {run : σ → ε → σ} {P : σ → Prop} {D : σ → ε → Prop}

/-- All states of a run meet `P`, the last one too, and all its steps meet `C`. -/
def Throughout (run : σ → ε → σ) (P : σ → Prop) (C : σ → ε → Prop) : σ → List ε → Prop
  | s, [] => P s
  | s, e :: es => P s ∧ C s e ∧ Throughout run P C (run s e) es

/-- Conditions that agree under an invariant of the runs agree on the runs. -/
theorem throughout_iff {Q : σ → Prop} (hP : ∀ s, I s → (P s ↔ Q s))
    (hC : ∀ s e, I s → (C s e ↔ D s e)) (hI : ∀ s e, I s → D s e → I (run s e)) {s : σ}
    (hs : I s) (es : List ε) : Throughout run P C s es ↔ Throughout run Q D s es := by
  induction es generalizing s with
  | nil => exact hP s hs
  | cons e es ih =>
    refine and_congr (hP s hs) ?_
    constructor
    · rintro ⟨he, hes⟩
      have hd := (hC s e hs).1 he
      exact ⟨hd, (ih (hI s e hs hd)).1 hes⟩
    · rintro ⟨hd, hes⟩
      exact ⟨(hC s e hs).2 hd, (ih (hI s e hs hd)).2 hes⟩

end Throughout

end Zelda
