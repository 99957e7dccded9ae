import Mathlib.Tactic

/-!
# Machine words

The conversions a C++ program makes without saying so: a signed integer compared with a `size_t`
becomes unsigned (`sizeT`), an unsigned one passed as an `int` becomes signed (`int32`), and a
16-bit field is two bytes, the low one first (`bytes16`, `word16`).
-/

namespace Zelda.Word

/-- A signed integer converted to a 64-bit `size_t`. -/
def sizeT (x : ℤ) : ℕ := (x % 2 ^ 64).toNat

theorem sizeT_of_nonneg {x : ℤ} (h0 : 0 ≤ x) (h : x < 2 ^ 64) : (sizeT x : ℤ) = x := by
  rw [sizeT, Int.emod_eq_of_lt h0 h, Int.toNat_of_nonneg h0]

/-- An unsigned integer converted to a 32-bit `int`. -/
def int32 (x : ℕ) : ℤ := (Int32.ofNat x).toInt

theorem int32_of_lt {x : ℕ} (h : x < 2 ^ 31) : int32 x = x := Int32.toInt_ofNat_of_lt h

/-- The 16-bit word with the given low and high byte. -/
def word16 (lo hi : UInt8) : UInt16 := UInt16.ofNat (lo.toNat + 256 * hi.toNat)

/-- The two bytes of a 16-bit word, the low one first. -/
def bytes16 (w : UInt16) : List UInt8 := [UInt8.ofNat w.toNat, UInt8.ofNat (w.toNat / 256)]

theorem toNat_word16 (lo hi : UInt8) : (word16 lo hi).toNat = lo.toNat + 256 * hi.toNat := by
  have hlo := lo.toNat_lt
  have hhi := hi.toNat_lt
  rw [word16, UInt16.toNat_ofNat']
  omega

@[simp] theorem word16_bytes16 (w : UInt16) :
    word16 (UInt8.ofNat w.toNat) (UInt8.ofNat (w.toNat / 256)) = w := by
  have hw := w.toNat_lt
  rw [← UInt16.toNat_inj, toNat_word16, UInt8.toNat_ofNat', UInt8.toNat_ofNat']
  omega

@[simp] theorem length_bytes16 (w : UInt16) : (bytes16 w).length = 2 := rfl

end Zelda.Word
