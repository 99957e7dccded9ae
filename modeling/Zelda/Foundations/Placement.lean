import Mathlib.Tactic

/-!
# Things placed on cells

A placement gives every thing the cell it stands on, if it is there at all. It is exclusive if no
two things share a cell and every cell in use is an allowed one.

* `Exclusive.mono`: things may be taken away.
* `Exclusive.update_iff`: putting one thing on a cell keeps a placement exclusive exactly when the
  cell is allowed and no other thing stands there.
-/

namespace Zelda

variable {ι κ : Type*} {ok : κ → Prop} {pos pos' : ι → Option κ}

/-- No two things share a cell, and every cell in use is allowed. -/
structure Exclusive (ok : κ → Prop) (pos : ι → Option κ) : Prop where
  allowed : ∀ {i c}, pos i = some c → ok c
  injective : ∀ {i j c}, pos i = some c → pos j = some c → i = j

namespace Exclusive

theorem mono (h : Exclusive ok pos) (hsub : ∀ i c, pos' i = some c → pos i = some c) :
    Exclusive ok pos' where
  allowed hi := h.allowed (hsub _ _ hi)
  injective hi hj := h.injective (hsub _ _ hi) (hsub _ _ hj)

theorem update_iff [DecidableEq ι] (h : Exclusive ok pos) {i : ι} {c : κ} :
    Exclusive ok (Function.update pos i (some c)) ↔ ok c ∧ ∀ j, j ≠ i → pos j ≠ some c := by
  constructor
  · intro h'
    have hi : Function.update pos i (some c) i = some c := Function.update_self i _ pos
    refine ⟨h'.allowed hi, fun j hne hj => hne ?_⟩
    apply h'.injective (c := c) _ hi
    rw [Function.update_of_ne hne, hj]
  · rintro ⟨hok, hfree⟩
    have hcase : ∀ {j d}, Function.update pos i (some c) j = some d →
        (j = i ∧ d = c) ∨ (j ≠ i ∧ pos j = some d) := by
      intro j d hj
      rcases eq_or_ne j i with rfl | hne
      · rw [Function.update_self] at hj
        exact .inl ⟨rfl, (Option.some.inj hj).symm⟩
      · rw [Function.update_of_ne hne] at hj
        exact .inr ⟨hne, hj⟩
    constructor
    · intro j d hj
      rcases hcase hj with ⟨-, rfl⟩ | ⟨-, hj⟩
      · exact hok
      · exact h.allowed hj
    · intro j k d hj hk
      rcases hcase hj with ⟨hji, hdc⟩ | ⟨hji, hj'⟩ <;> rcases hcase hk with ⟨hki, hdc'⟩ | ⟨hki, hk'⟩
      · rw [hji, hki]
      · exact absurd (hdc ▸ hk') (hfree k hki)
      · exact absurd (hdc' ▸ hj') (hfree j hji)
      · exact h.injective hj' hk'

end Exclusive

end Zelda
