import Mathlib.Tactic

/-!
# Blocks of memory

A block of memory is the list of its cells. `slice` reads a range of it and `overwrite` writes
one (`memcpy` is an `overwrite` by a `slice`). The lemmas say what a read sees after a write:
the written cells, or what was there when the ranges do not meet.

Where an access need not stay in a block, the memory is a function of the address; `load` and
`store` are the same two operations on it, and they do not stop at the end of anything.
-/

namespace Zelda.Memory

variable {α : Type*}

/-- The `n` cells from position `pos` on. -/
def slice (l : List α) (pos n : ℕ) : List α := (l.drop pos).take n

/-- The block with the cells from position `pos` on replaced by `data`. -/
def overwrite (l : List α) (pos : ℕ) (data : List α) : List α :=
  l.take pos ++ data ++ l.drop (pos + data.length)

@[simp] theorem slice_zero_length (l : List α) (pos : ℕ) : slice l pos 0 = [] := by simp [slice]

theorem length_slice {l : List α} {pos n : ℕ} (h : pos + n ≤ l.length) :
    (slice l pos n).length = n := by
  rw [slice, List.length_take, List.length_drop]
  omega

@[simp] theorem length_overwrite {l data : List α} {pos : ℕ} (h : pos + data.length ≤ l.length) :
    (overwrite l pos data).length = l.length := by
  simp only [overwrite, List.length_append, List.length_take, List.length_drop]
  omega

/-- Two neighbouring ranges are one range. -/
theorem slice_append_slice (l : List α) (pos m n : ℕ) :
    slice l pos m ++ slice l (pos + m) n = slice l pos (m + n) := by
  rw [slice, slice, slice, List.take_add, List.drop_drop]

/-- The front of a range and what is behind it. -/
theorem drop_slice (l : List α) (pos m n : ℕ) :
    (slice l pos n).drop m = slice l (pos + m) (n - m) := by
  rw [slice, slice, List.drop_take, List.drop_drop]

/-- A read of what was written. -/
theorem slice_overwrite_self {l data : List α} {pos : ℕ} (h : pos ≤ l.length) :
    slice (overwrite l pos data) pos data.length = data := by
  have hlen : (l.take pos).length = pos := by rw [List.length_take, Nat.min_eq_left h]
  rw [slice, overwrite, List.append_assoc, List.drop_append_of_le_length (by rw [hlen]),
    List.drop_eq_nil_of_le (by rw [hlen]), List.nil_append, List.take_left]

/-- A read in front of what was written. -/
theorem slice_overwrite_of_le {l data : List α} {pos p n : ℕ} (h : p + n ≤ pos)
    (hpos : pos ≤ l.length) : slice (overwrite l pos data) p n = slice l p n := by
  have hlen : (l.take pos).length = pos := by rw [List.length_take, Nat.min_eq_left hpos]
  rw [slice, overwrite, List.append_assoc, List.drop_append_of_le_length (by omega),
    List.take_append_of_le_length (by rw [List.length_drop]; omega), slice, List.drop_take,
    List.take_take, Nat.min_eq_left (by omega)]

/-- A write directly behind a known front of the block. -/
theorem overwrite_append_replicate (front data : List α) (x : α) (n : ℕ) :
    overwrite (front ++ List.replicate n x) front.length data =
      (front ++ data) ++ List.replicate (n - data.length) x := by
  rw [overwrite, List.take_left, ← List.drop_drop, List.drop_left, List.drop_replicate]

/-! ## Memory without an end -/

/-- The memory that a block starts, with `x` in all the other cells. -/
def cells (l : List α) (x : α) (i : ℕ) : α := l.getD i x

/-- The `n` cells from address `pos` on. -/
def load (m : ℕ → α) (pos n : ℕ) : List α := (List.range n).map fun i => m (pos + i)

/-- The memory with the first `n` cells of `src` copied to address `pos`. -/
def store (m : ℕ → α) (pos n : ℕ) (src : ℕ → α) (i : ℕ) : α :=
  if pos ≤ i ∧ i < pos + n then src (i - pos) else m i

@[simp] theorem length_load (m : ℕ → α) (pos n : ℕ) : (load m pos n).length = n := by
  rw [load, List.length_map, List.length_range]

/-- A load sees nothing but the cells of its range. -/
theorem load_congr {m m' : ℕ → α} {pos n : ℕ} (h : ∀ i < n, m (pos + i) = m' (pos + i)) :
    load m pos n = load m' pos n :=
  List.map_congr_left fun i hi => h i (List.mem_range.1 hi)

/-- In a block, a load is a slice. -/
theorem load_cells {l : List α} {pos n : ℕ} (h : pos + n ≤ l.length) (x : α) :
    load (cells l x) pos n = slice l pos n := by
  refine List.ext_getElem (by rw [length_load, length_slice h]) fun i hi _ => ?_
  rw [length_load] at hi
  simp only [load, cells, slice, List.getElem_map, List.getElem_range, List.getElem_take,
    List.getElem_drop]
  exact (List.getElem_eq_getD x).symm

/-- A store changes nothing but the cells of its range. -/
theorem store_of_outside {pos n i : ℕ} (h : i < pos ∨ pos + n ≤ i) (m src : ℕ → α) :
    store m pos n src i = m i := if_neg (by omega)

/-- A load of what was stored. -/
theorem load_store_self (m : ℕ → α) (pos n : ℕ) (src : ℕ → α) :
    load (store m pos n src) pos n = load src 0 n := by
  refine List.map_congr_left fun i hi => ?_
  have hlt := List.mem_range.1 hi
  simp only [store]
  rw [if_pos (by omega), Nat.add_sub_cancel_left, Nat.zero_add]

end Zelda.Memory
