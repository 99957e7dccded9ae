import Mathlib.Tactic

/-!
# Integers assigned to a `float`

A C++ `int32` assigned to a `float` is rounded to a multiple of a power of two with 24 significant
bits, ties to the even one. The rounded value is an integer again, so it is kept as one:
`ofInt x` is the value of `(float)x`.
-/

namespace Zelda.Binary32

/-- The largest finite `float`, `FLT_MAX`. -/
def fltMax : ℤ := (2 ^ 24 - 1) * 2 ^ 104

/-- The magnitude `n` rounded to 24 significant bits, ties to even. -/
def roundNat (n : ℕ) : ℕ :=
  let ulp := 2 ^ (n.log2 - 23)
  let q := n / ulp
  let r := n % ulp
  if 2 * r < ulp ∨ (2 * r = ulp ∧ q % 2 = 0) then q * ulp else (q + 1) * ulp

/-- The value of `(float)x`. -/
def ofInt (x : ℤ) : ℤ := x.sign * roundNat x.natAbs

theorem roundNat_of_lt {n : ℕ} (h : n < 2 ^ 24) : roundNat n = n := by
  have hlog : n.log2 - 23 = 0 := by
    rcases Nat.eq_zero_or_pos n with rfl | hn
    · rfl
    · have := (Nat.log2_lt (by omega)).mpr h
      omega
  simp [roundNat, hlog, Nat.mod_one]

/-- Integers of at most 24 bits are not rounded. -/
theorem ofInt_of_natAbs_lt {x : ℤ} (h : x.natAbs < 2 ^ 24) : ofInt x = x := by
  rw [ofInt, roundNat_of_lt h, Int.sign_mul_natAbs]

theorem roundNat_le (n : ℕ) : roundNat n ≤ 2 * n := by
  rcases Nat.lt_or_ge n (2 ^ 24) with h | h
  · rw [roundNat_of_lt h]
    omega
  · have hulp : 2 ^ (n.log2 - 23) ≤ n := (Nat.pow_le_pow_right (by omega) (by omega)).trans
      (Nat.log2_self_le (by omega))
    have hdiv : n / 2 ^ (n.log2 - 23) * 2 ^ (n.log2 - 23) ≤ n := Nat.div_mul_le_self _ _
    simp only [roundNat]
    split
    · omega
    · rw [Nat.add_mul, Nat.one_mul]
      omega

/-- Every `int32` is below `FLT_MAX`. -/
theorem ofInt_lt_fltMax (x : Int32) : ofInt x.toInt < fltMax := by
  have hle := roundNat_le x.toInt.natAbs
  have h₁ := x.le_toInt
  have h₂ := x.toInt_lt
  have hround : (roundNat x.toInt.natAbs : ℤ) ≤ 2 ^ 33 := by omega
  have hlt : ofInt x.toInt ≤ roundNat x.toInt.natAbs := by
    rw [ofInt]
    rcases Int.lt_trichotomy x.toInt 0 with h | h | h
    · rw [Int.sign_eq_neg_one_of_neg h]
      omega
    · rw [h]
      simp
    · rw [Int.sign_eq_one_of_pos h, one_mul]
  exact lt_of_le_of_lt (hlt.trans hround) (by decide)

example : ofInt (2 ^ 24 + 1) = 2 ^ 24 := by decide

end Zelda.Binary32
