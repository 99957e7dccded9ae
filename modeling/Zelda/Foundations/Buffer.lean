import Zelda.Foundations.Memory

/-!
# Buffers with a cursor

A buffer is memory from some address on, a size and a cursor, both machine words. How much is left
behind the cursor is a difference of words, so it wraps once the cursor is past the end.

A buffer is in bounds (`InBounds`) while the cursor is not past the end. An operation on a value of
some size is safe (`Safe`) if it touches no cell behind the end and does nothing at all when the
value does not fit. An operation that first compares the size with what is left is safe in a buffer
that is in bounds; one that does not is safe exactly if the value fits (`safe_unchecked_iff`).
-/

namespace Zelda

/-- Memory from the start of a buffer on, the size of the buffer and the cursor. -/
structure Buffer (α : Type*) (w : ℕ) where
  memory : ℕ → α
  size : BitVec w
  pos : BitVec w := 0#w

namespace Buffer

variable {α : Type*} {w : ℕ} {b b' : Buffer α w} {n : ℕ}

/-- What is left behind the cursor, if the difference does not wrap. -/
def freeSize (b : Buffer α w) : BitVec w := b.size - b.pos

/-- The cursor moved behind the next value. -/
def advance (b : Buffer α w) (len : BitVec w) : Buffer α w := { b with pos := b.pos + len }

@[simp] theorem memory_advance (len : BitVec w) : (b.advance len).memory = b.memory := rfl
@[simp] theorem size_advance (len : BitVec w) : (b.advance len).size = b.size := rfl
@[simp] theorem pos_advance (len : BitVec w) : (b.advance len).pos = b.pos + len := rfl

/-! ## What is left -/

theorem lt_or_fits (b : Buffer α w) (len : BitVec w) : b.freeSize < len ∨ len ≤ b.freeSize :=
  Nat.lt_or_ge _ _

theorem toNat_freeSize (h : b.pos ≤ b.size) : b.freeSize.toNat = b.size.toNat - b.pos.toNat :=
  BitVec.toNat_sub_of_le h

/-- Past the end the difference wraps: it is as if almost all of the address space were left. -/
theorem toNat_freeSize_of_lt (h : b.size < b.pos) :
    b.freeSize.toNat = 2 ^ w - (b.pos.toNat - b.size.toNat) :=
  BitVec.toNat_sub_of_lt h

theorem toNat_pos_advance (hb : b.pos ≤ b.size) {len : BitVec w} (h : len ≤ b.freeSize) :
    (b.advance len).pos.toNat = b.pos.toNat + len.toNat := by
  have hfree := toNat_freeSize hb
  have hlen := BitVec.le_def.1 h
  have hsize := b.size.isLt
  have hpos := BitVec.le_def.1 hb
  rw [pos_advance]
  exact BitVec.toNat_add_of_lt (by omega)

/-! ## Bounds -/

/-- The cursor is not past the end and what is left has not wrapped. -/
structure InBounds (b : Buffer α w) : Prop where
  pos_le : b.pos ≤ b.size
  pos_add_freeSize : b.pos.toNat + b.freeSize.toNat = b.size.toNat

theorem inBounds_of_le (h : b.pos ≤ b.size) : b.InBounds where
  pos_le := h
  pos_add_freeSize := by
    have hpos := BitVec.le_def.1 h
    rw [toNat_freeSize h]
    omega

/-- A value that fits leaves the cursor in bounds. -/
theorem pos_advance_le (hb : b.pos ≤ b.size) {len : BitVec w} (h : len ≤ b.freeSize) :
    (b.advance len).pos ≤ (b.advance len).size := by
  have hfree := toNat_freeSize hb
  have hlen := BitVec.le_def.1 h
  have hpos := BitVec.le_def.1 hb
  rw [BitVec.le_def, toNat_pos_advance hb h, size_advance]
  omega

/-- The same for a size that is converted to a word. -/
theorem pos_advance_ofNat_le (hb : b.pos ≤ b.size) (h : n ≤ b.freeSize.toNat) :
    (b.advance (BitVec.ofNat w n)).pos ≤ (b.advance (BitVec.ofNat w n)).size := by
  refine pos_advance_le hb (BitVec.le_def.2 ?_)
  rw [BitVec.toNat_ofNat]
  exact (Nat.mod_le _ _).trans h

/-- The next `n` cells are in the buffer exactly if they are left. -/
theorem forall_inside_iff (h : b.pos ≤ b.size) :
    (∀ i < n, b.pos.toNat + i < b.size.toNat) ↔ n ≤ b.freeSize.toNat := by
  have hpos := BitVec.le_def.1 h
  rw [toNat_freeSize h]
  constructor
  · intro hall
    rcases Nat.eq_zero_or_pos n with rfl | hn
    · exact Nat.zero_le _
    · have hlast := hall (n - 1) (by omega)
      omega
  · intro hn i hi
    omega

/-! ## Safe operations -/

/-- An operation on a value of `n` cells that touches the next `touched` cells of `b` and leaves
`b'`. -/
structure Safe (b : Buffer α w) (n touched : ℕ) (b' : Buffer α w) : Prop where
  inside : ∀ i < touched, b.pos.toNat + i < b.size.toNat
  unchanged : b.size.toNat - b.pos.toNat < n → b' = b

/-- An operation that is refused. -/
theorem safe_refused : b.Safe n 0 b where
  inside _ hi := absurd hi (Nat.not_lt_zero _)
  unchanged _ := rfl

/-- An operation that does not compare the size with what is left. -/
theorem safe_unchecked_iff (h : b.pos ≤ b.size) : b.Safe n n b' ↔ n ≤ b.freeSize.toNat := by
  constructor
  · intro hsafe
    exact (forall_inside_iff h).1 hsafe.inside
  · intro hn
    refine ⟨(forall_inside_iff h).2 hn, fun hlt => ?_⟩
    rw [toNat_freeSize h] at hn
    omega

/-- What an operation touches that does compare them. -/
def granted (b : Buffer α w) (n : ℕ) : ℕ := if b.freeSize.toNat < n then 0 else n

theorem granted_of_lt (h : b.freeSize.toNat < n) : b.granted n = 0 := if_pos h

theorem granted_of_le (h : n ≤ b.freeSize.toNat) : b.granted n = n := if_neg (Nat.not_lt.2 h)

/-- An operation that compares them is safe, whatever it does when the value fits. -/
theorem safe_granted (h : b.pos ≤ b.size) (hrefused : b.freeSize.toNat < n → b' = b) :
    b.Safe n (b.granted n) b' := by
  rcases lt_or_ge b.freeSize.toNat n with hlt | hle
  · rw [granted_of_lt hlt, hrefused hlt]
    exact safe_refused
  · rw [granted_of_le hle]
    exact (safe_unchecked_iff h).2 hle

end Buffer

end Zelda
