import Mathlib.Tactic

/-!
# A token passed between threads and operations in flight

Threads `T` stand at program points `K`. A thread holds the token when its point is in `Holds`, and
the token can also be away with one of `n` operations in flight. `Token` says that it is in at most
one place, `Free` that it is in none. A thread moves from one point to another:

* `Token.move`, `Free.move`: without taking up the token;
* `Free.acquire`: taking up a token that is free;
* `Token.give`, `Token.take`, `Token.drop`: handing it to an operation, getting it back from one
  that has completed, or losing it on completion;
* `Token.release`: laying it down.
-/

namespace Zelda

variable {T K : Type*} {pc : T → K} {Holds : K → Prop} {n : ℕ} {t : T} {j k : K}

/-- The token is in at most one place. -/
structure Token (pc : T → K) (Holds : K → Prop) (n : ℕ) : Prop where
  le_one : n ≤ 1
  nobody : 0 < n → ∀ t, ¬ Holds (pc t)
  unique : ∀ {t u}, Holds (pc t) → Holds (pc u) → t = u

/-- The token is in no place. -/
structure Free (pc : T → K) (Holds : K → Prop) (n : ℕ) : Prop where
  eq_zero : n = 0
  nobody : ∀ t, ¬ Holds (pc t)

/-- The token is in some place. -/
def Held (pc : T → K) (Holds : K → Prop) (n : ℕ) : Prop := 0 < n ∨ ∃ t, Holds (pc t)

theorem Free.token (h : Free pc Holds n) : Token pc Holds n where
  le_one := by have := h.eq_zero; omega
  nobody _ := h.nobody
  unique ht := absurd ht (h.nobody _)

theorem Token.eq_zero (h : Token pc Holds n) (ht : pc t = j) (hj : Holds j) : n = 0 := by
  by_contra hn
  apply h.nobody (Nat.pos_of_ne_zero hn) t
  rw [ht]
  exact hj

/-- While an operation is in flight, taking it away leaves the token free. -/
theorem Token.free_of_succ (h : Token pc Holds (n + 1)) : Free pc Holds n where
  eq_zero := by have := h.le_one; omega
  nobody := h.nobody n.succ_pos

section Update

variable [DecidableEq T]

/-- Who holds the token after a move was there before, or is the one who moved. -/
theorem holds_update {u : T} (h : Holds (Function.update pc t k u)) :
    (u = t ∧ Holds k) ∨ (u ≠ t ∧ Holds (pc u)) := by
  rcases eq_or_ne u t with rfl | hne
  · rw [Function.update_self] at h
    exact .inl ⟨rfl, h⟩
  · rw [Function.update_of_ne hne] at h
    exact .inr ⟨hne, h⟩

theorem Token.move (h : Token pc Holds n) (ht : pc t = j) (hjk : Holds k → Holds j) :
    Token (Function.update pc t k) Holds n := by
  have hback : ∀ {u}, Holds (Function.update pc t k u) → Holds (pc u) := by
    intro u hu
    rcases holds_update hu with ⟨rfl, hk⟩ | ⟨-, hu⟩
    · rw [ht]
      exact hjk hk
    · exact hu
  exact ⟨h.le_one, fun hn u hu => h.nobody hn u (hback hu),
    fun hu hv => h.unique (hback hu) (hback hv)⟩

theorem Free.move (h : Free pc Holds n) (hk : ¬ Holds k) :
    Free (Function.update pc t k) Holds n where
  eq_zero := h.eq_zero
  nobody u hu := by
    rcases holds_update hu with ⟨-, hk'⟩ | ⟨-, hu'⟩
    · exact hk hk'
    · exact h.nobody u hu'

theorem Free.acquire (h : Free pc Holds n) : Token (Function.update pc t k) Holds n where
  le_one := by have := h.eq_zero; omega
  nobody hn := by have := h.eq_zero; omega
  unique hu hv := by
    rcases holds_update hu with ⟨rfl, -⟩ | ⟨-, hu'⟩
    · rcases holds_update hv with ⟨rfl, -⟩ | ⟨-, hv'⟩
      · rfl
      · exact absurd hv' (h.nobody _)
    · exact absurd hu' (h.nobody _)

theorem Token.release (h : Token pc Holds n) (ht : pc t = j) (hj : Holds j) (hk : ¬ Holds k) :
    Free (Function.update pc t k) Holds n where
  eq_zero := h.eq_zero ht hj
  nobody u hu := by
    rcases holds_update hu with ⟨-, hk'⟩ | ⟨hne, hu'⟩
    · exact hk hk'
    · apply hne
      apply h.unique hu'
      rw [ht]
      exact hj

theorem Token.give (h : Token pc Holds n) (ht : pc t = j) (hj : Holds j) (hk : ¬ Holds k) :
    Token (Function.update pc t k) Holds (n + 1) := by
  have hfree := h.release ht hj hk
  refine ⟨?_, fun _ => hfree.nobody, fun hu => absurd hu (hfree.nobody _)⟩
  have := hfree.eq_zero
  omega

theorem Token.take (h : Token pc Holds (n + 1)) : Token (Function.update pc t k) Holds n :=
  h.free_of_succ.acquire

theorem Token.drop (h : Token pc Holds (n + 1)) (hk : ¬ Holds k) :
    Free (Function.update pc t k) Holds n :=
  h.free_of_succ.move hk

theorem Held.move (h : Held pc Holds n) (ht : pc t = j) (hjk : Holds j → Holds k) :
    Held (Function.update pc t k) Holds n := by
  rcases h with hn | ⟨u, hu⟩
  · exact .inl hn
  · refine .inr ⟨u, ?_⟩
    rcases eq_or_ne u t with rfl | hne
    · rw [Function.update_self]
      exact hjk (ht ▸ hu)
    · rwa [Function.update_of_ne hne]

theorem Held.of_self (hk : Holds k) : Held (Function.update pc t k) Holds n :=
  .inr ⟨t, by rwa [Function.update_self]⟩

end Update

end Zelda
