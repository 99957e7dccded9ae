import Mathlib.Tactic
import Std.Data.ExtTreeMap

/-!
# `VectorInt`

Cells of the map, with `int32` arithmetic that wraps around and the lexicographic order that
`std::map<Vec2Int, …>` uses.

Main lemmas: `Vec2Int.distance_eq_zero`, the two cells at distance 0 from a cell, and
`Vec2Int.toInt_distance_antipode`, what the distance is near the second of them.
-/

namespace Zelda.Server

/-- `struct VectorInt` -/
@[ext] structure Vec2Int where
  x : Int32
  y : Int32
  deriving DecidableEq, Repr

namespace Vec2Int

/-- `VectorInt::operator+` -/
instance : Add Vec2Int := ⟨fun a b => ⟨a.x + b.x, a.y + b.y⟩⟩

/-- `VectorInt::operator-` -/
instance : Sub Vec2Int := ⟨fun a b => ⟨a.x - b.x, a.y - b.y⟩⟩

/-- `VectorInt::LengthSquared` -/
def lengthSquared (a : Vec2Int) : Int32 := a.x * a.x + a.y * a.y

/-- `abs(dir.x) + abs(dir.y)` -/
def manhattan (dir : Vec2Int) : Int32 := dir.x.abs + dir.y.abs

/-- `abs(a.y - b.y) + abs(a.x - b.x)` -/
def distance (a b : Vec2Int) : Int32 := (a.y - b.y).abs + (a.x - b.x).abs

/-- `VectorInt::operator<` -/
instance : Ord Vec2Int := ⟨compareLex (compareOn x) (compareOn y)⟩

instance : Std.TransOrd Vec2Int :=
  inferInstanceAs (Std.TransCmp (compareLex (compareOn Vec2Int.x) (compareOn Vec2Int.y)))

instance : Std.LawfulEqOrd Vec2Int where
  eq_of_compare {a b} h := by
    have h : compareLex (compareOn Vec2Int.x) (compareOn Vec2Int.y) a b = .eq := h
    rw [compareLex_eq_eq] at h
    obtain ⟨hx, hy⟩ := h
    exact Vec2Int.ext (Std.LawfulEqCmp.eq_of_compare hx) (Std.LawfulEqCmp.eq_of_compare hy)

theorem add_def (a b : Vec2Int) : a + b = ⟨a.x + b.x, a.y + b.y⟩ := rfl

theorem sub_def (a b : Vec2Int) : a - b = ⟨a.x - b.x, a.y - b.y⟩ := rfl

end Vec2Int

/-! ## The magnitude of a difference -/

theorem toInt_abs (x : Int32) : x.abs.toInt = (x.toInt.natAbs : ℤ).bmod (2 ^ 32) := by
  have h₁ := x.le_toInt
  have h₂ := x.toInt_lt
  have hneg : x.toBitVec.msb = true ↔ x.toInt < 0 := by
    rw [BitVec.msb_eq_toInt, decide_eq_true_eq, Int32.toInt_toBitVec]
  rw [← Int32.toInt_toBitVec, Int32.toBitVec_abs, BitVec.abs_eq]
  split
  · rename_i h
    have := hneg.1 h
    rw [BitVec.toInt_neg, Int32.toInt_toBitVec]
    congr 1
    omega
  · rename_i h
    rw [hneg] at h
    rw [Int32.toInt_toBitVec, Int.natAbs_of_nonneg (by omega),
      Int.bmod_eq_of_le (by omega) (by omega)]

theorem natAbs_toInt_le (x : Int32) : x.toInt.natAbs ≤ 2 ^ 31 := by
  have h₁ := x.le_toInt
  have h₂ := x.toInt_lt
  omega

theorem natAbs_toInt_sub_comm (x y : Int32) : (x - y).toInt.natAbs = (y - x).toInt.natAbs := by
  have h₁ := (y - x).le_toInt
  have h₂ := (y - x).toInt_lt
  have hneg : x - y = -(y - x) := Int32.neg_sub.symm
  rw [hneg, Int32.toInt_neg]
  generalize (y - x).toInt = u at *
  rcases eq_or_lt_of_le h₁ with rfl | h
  · rfl
  · rw [Int.bmod_eq_of_le (by omega) (by omega), Int.natAbs_neg]

theorem toInt_sub_eq_zero {x y : Int32} : (x - y).toInt = 0 ↔ y = x := by
  rw [← Int32.toInt_zero, Int32.toInt_inj, Int32.sub_eq_iff_eq_add, Int32.zero_add, eq_comm]

theorem toInt_sub_eq_minValue {x y : Int32} :
    (x - y).toInt = -2 ^ 31 ↔ y = x + Int32.minValue := by
  rw [← Int32.toInt_minValue, Int32.toInt_inj, Int32.sub_eq_iff_eq_add]
  constructor
  · rintro rfl
    rw [Int32.add_comm, ← Int32.add_assoc]
    exact (Int32.zero_add y).symm
  · rintro rfl
    rw [Int32.add_comm, Int32.add_assoc]
    exact (Int32.add_zero x).symm

/-- Half the range away, a difference comes out as what is missing to 2³¹. -/
theorem natAbs_toInt_add_minValue_sub {x y : Int32} (hx : 0 ≤ x.toInt) (hy : 0 ≤ y.toInt) :
    ((x + Int32.minValue) - y).toInt.natAbs = 2 ^ 31 - (x.toInt - y.toInt).natAbs := by
  have h₁ := x.toInt_lt
  have h₂ := y.toInt_lt
  rw [Int32.toInt_sub, Int32.toInt_add, Int.bmod_sub_bmod, Int32.toInt_minValue]
  rcases le_or_gt y.toInt x.toInt with h | h
  · rw [Int.bmod_eq_of_le (by omega) (by omega)]
    omega
  · rw [← Int.add_bmod_right, Int.bmod_eq_of_le (by omega) (by omega)]
    omega

namespace Vec2Int

/-! ## Distances

`distance` wraps around, `gap` does not. -/

/-- The cell half the `int32` range away in both coordinates. -/
def antipode (c : Vec2Int) : Vec2Int := c + ⟨Int32.minValue, Int32.minValue⟩

/-- No coordinate is negative. -/
def Nonneg (c : Vec2Int) : Prop := 0 ≤ c.x.toInt ∧ 0 ≤ c.y.toInt

/-- The distance that does not wrap around. -/
def gap (a b : Vec2Int) : ℕ := (a.y.toInt - b.y.toInt).natAbs + (a.x.toInt - b.x.toInt).natAbs

theorem antipode_antipode (c : Vec2Int) : c.antipode.antipode = c := by
  have key : ∀ x : Int32, x + Int32.minValue + Int32.minValue = x := by
    intro x
    rw [Int32.add_assoc]
    exact Int32.add_zero x
  exact Vec2Int.ext (key c.x) (key c.y)

theorem toInt_distance (a b : Vec2Int) : (a.distance b).toInt =
    ((a.y - b.y).toInt.natAbs + (a.x - b.x).toInt.natAbs : ℤ).bmod (2 ^ 32) := by
  rw [distance, Int32.toInt_add, toInt_abs, toInt_abs, Int.bmod_add_bmod, Int.add_bmod_bmod]

theorem distance_comm (a b : Vec2Int) : a.distance b = b.distance a := by
  rw [← Int32.toInt_inj, toInt_distance, toInt_distance, natAbs_toInt_sub_comm a.y,
    natAbs_toInt_sub_comm a.x]

/-- **The distance is 0 at two cells**: each `abs` is 0, or each is 2³¹ and the sum wraps around. -/
theorem distance_eq_zero {a b : Vec2Int} : a.distance b = 0 ↔ b = a ∨ b = a.antipode := by
  rw [← Int32.toInt_inj, toInt_distance, Int32.toInt_zero]
  constructor
  · intro h
    have hx := natAbs_toInt_le (a.x - b.x)
    have hy := natAbs_toInt_le (a.y - b.y)
    have hdvd := Int.dvd_of_bmod_eq_zero h
    have hx' := (a.x - b.x).toInt_lt
    have hy' := (a.y - b.y).toInt_lt
    rcases eq_or_ne (a.x - b.x).toInt 0 with h₀ | h₀
    · have h₁ : (a.y - b.y).toInt = 0 := by omega
      exact .inl (Vec2Int.ext (toInt_sub_eq_zero.1 h₀) (toInt_sub_eq_zero.1 h₁))
    · have h₁ : (a.y - b.y).toInt = -2 ^ 31 := by omega
      have h₂ : (a.x - b.x).toInt = -2 ^ 31 := by omega
      exact .inr (Vec2Int.ext (toInt_sub_eq_minValue.1 h₂) (toInt_sub_eq_minValue.1 h₁))
  · rintro (rfl | rfl)
    · rw [toInt_sub_eq_zero.2 rfl, toInt_sub_eq_zero.2 rfl]
      rfl
    · have hx : (a.x - a.antipode.x).toInt = -2 ^ 31 := toInt_sub_eq_minValue.2 rfl
      have hy : (a.y - a.antipode.y).toInt = -2 ^ 31 := toInt_sub_eq_minValue.2 rfl
      rw [hx, hy]
      rfl

/-- The distance is what it looks like, as long as it fits. -/
theorem toInt_distance_of_gap_lt {a b : Vec2Int} (hgap : a.gap b < 2 ^ 31) :
    (a.distance b).toInt = a.gap b := by
  rw [gap] at hgap ⊢
  have hx : (a.x - b.x).toInt = a.x.toInt - b.x.toInt := by
    rw [Int32.toInt_sub, Int.bmod_eq_of_le (by omega) (by omega)]
  have hy : (a.y - b.y).toInt = a.y.toInt - b.y.toInt := by
    rw [Int32.toInt_sub, Int.bmod_eq_of_le (by omega) (by omega)]
  rw [toInt_distance, hx, hy, Int.bmod_eq_of_le (by omega) (by omega), Nat.cast_add]

/-- **Seen from the antipode the distance is negative**: the nearer to `a`, the larger. -/
theorem toInt_distance_antipode {a b : Vec2Int} (ha : a.Nonneg) (hb : b.Nonneg)
    (hgap : a.gap b < 2 ^ 31) : (a.antipode.distance b).toInt = -(a.gap b : ℤ) := by
  have hx : (a.antipode.x - b.x).toInt.natAbs = 2 ^ 31 - (a.x.toInt - b.x.toInt).natAbs :=
    natAbs_toInt_add_minValue_sub ha.1 hb.1
  have hy : (a.antipode.y - b.y).toInt.natAbs = 2 ^ 31 - (a.y.toInt - b.y.toInt).natAbs :=
    natAbs_toInt_add_minValue_sub ha.2 hb.2
  rw [gap] at hgap ⊢
  rw [toInt_distance, hx, hy, ← Int.sub_bmod_right, Int.bmod_eq_of_le (by omega) (by omega)]
  omega

theorem gap_triangle (a b c : Vec2Int) : a.gap c ≤ a.gap b + b.gap c := by
  simp only [gap]
  omega

theorem gap_comm (a b : Vec2Int) : a.gap b = b.gap a := by
  simp only [gap]
  omega

theorem gap_eq_zero {a b : Vec2Int} : a.gap b = 0 ↔ a = b := by
  constructor
  · intro h
    simp only [gap] at h
    exact Vec2Int.ext (Int32.toInt_inj.1 (by omega)) (Int32.toInt_inj.1 (by omega))
  · rintro rfl
    simp [gap]

end Vec2Int

end Zelda.Server
