import Zelda.ServerCore.BufferReader
import Zelda.ServerCore.PacketSession

/-!
# BufferWriter

`Write` and `Reserve` compare the length with `FreeSize()` first, `operator<<` does not.
`buffers_safe_iff`, for both classes: from a cursor that is not past the end, a sequence of
operations keeps the cursor there, touches no byte behind the end and changes nothing where a value
does not fit, exactly if no `operator>>` and no `operator<<` of it is used on a value that is larger
than what is left. Such a sequence of a writer changes nothing behind the end (`memory_foldl_run`).
-/

namespace Zelda.ServerCore

open Memory

/-- `class BufferWriter`. The bytes behind the buffer are part of its memory. -/
structure BufferWriter extends Buffer UInt8 32

namespace BufferWriter

variable (bw : BufferWriter)

/-- `BufferWriter::Write`; the overload for a value passes its `sizeof`. -/
def write (src : ℕ → UInt8) (len : BitVec 32) : Bool × BufferWriter :=
  if bw.freeSize < len then (false, bw)
  else (true, ⟨{ bw.advance len with memory := store bw.memory bw.pos.toNat len.toNat src }⟩)

/-- `BufferWriter::Reserve` for a type of `n` bytes: where the reserved bytes start, `none` is
`nullptr`. The comparison is one of `size_t`. -/
def reserve (n : ℕ) : Option ℕ × BufferWriter :=
  if bw.freeSize.toNat < n then (none, bw)
  else (some bw.pos.toNat, ⟨bw.advance (BitVec.ofNat 32 n)⟩)

/-- `BufferWriter::operator<<` for a value of `n` bytes -/
def insert (src : ℕ → UInt8) (n : ℕ) : BufferWriter :=
  ⟨{ bw.advance (BitVec.ofNat 32 n) with memory := store bw.memory bw.pos.toNat n src }⟩

end BufferWriter

/-- The operations of a writer. -/
inductive WriterOp
  | write (src : ℕ → UInt8) (len : BitVec 32)
  | reserve (n : ℕ)
  | insert (src : ℕ → UInt8) (n : ℕ)

/-- The size of the value. -/
def WriterOp.bytes : WriterOp → ℕ
  | .write _ len => len.toNat
  | .reserve n => n
  | .insert _ n => n

namespace BufferWriter

/-- The writer after an operation. -/
def run (bw : BufferWriter) : WriterOp → BufferWriter
  | .write src len => (bw.write src len).2
  | .reserve n => (bw.reserve n).2
  | .insert src n => bw.insert src n

/-- How many bytes from the cursor on an operation writes or hands out to be written. -/
def touched (bw : BufferWriter) : WriterOp → ℕ
  | .write _ len => bw.granted len.toNat
  | .reserve n => bw.granted n
  | .insert _ n => n

/-- The operation is safe in the buffer. -/
def Safe (bw : BufferWriter) (op : WriterOp) : Prop :=
  bw.toBuffer.Safe op.bytes (bw.touched op) (bw.run op).toBuffer

/-- An `operator<<` is not used on a value that is larger than what is left. -/
def Fits (bw : BufferWriter) : WriterOp → Prop
  | .write _ _ => True
  | .reserve _ => True
  | .insert _ n => n ≤ bw.freeSize.toNat

instance (bw : BufferWriter) : (op : WriterOp) → Decidable (bw.Fits op)
  | .write _ _ => .isTrue trivial
  | .reserve _ => .isTrue trivial
  | .insert _ n => inferInstanceAs (Decidable (n ≤ bw.freeSize.toNat))

variable {bw : BufferWriter} {src : ℕ → UInt8} {len : BitVec 32} {n : ℕ}

/-! ## One operation -/

theorem write_of_lt (h : bw.freeSize < len) : bw.write src len = (false, bw) := if_pos h

theorem write_of_le (h : len ≤ bw.freeSize) : bw.write src len =
    (true, ⟨{ bw.advance len with memory := store bw.memory bw.pos.toNat len.toNat src }⟩) :=
  if_neg (BitVec.not_lt.2 h)

theorem reserve_of_lt (h : bw.freeSize.toNat < n) : bw.reserve n = (none, bw) := if_pos h

theorem reserve_of_le (h : n ≤ bw.freeSize.toNat) :
    bw.reserve n = (some bw.pos.toNat, ⟨bw.advance (BitVec.ofNat 32 n)⟩) :=
  if_neg (Nat.not_lt.2 h)

@[simp] theorem memory_reserve : (bw.reserve n).2.memory = bw.memory := by
  rcases lt_or_ge bw.freeSize.toNat n with hlt | hle
  · rw [reserve_of_lt hlt]
  · rw [reserve_of_le hle]
    exact Buffer.memory_advance _

/-- An operation changes nothing but the bytes that it touches. -/
theorem memory_run_of_outside (op : WriterOp) {i : ℕ}
    (h : i < bw.pos.toNat ∨ bw.pos.toNat + bw.touched op ≤ i) :
    (bw.run op).memory i = bw.memory i := by
  cases op with
  | write src len =>
    rcases bw.lt_or_fits len with hlt | hle
    · rw [run, write_of_lt hlt]
    · rw [touched, Buffer.granted_of_le (BitVec.le_def.1 hle)] at h
      rw [run, write_of_le hle]
      exact store_of_outside h _ _
  | reserve n => rw [run, memory_reserve]
  | insert src n => exact store_of_outside h _ _

theorem size_run (op : WriterOp) : (bw.run op).size = bw.size := by
  cases op with
  | write src len =>
    rcases bw.lt_or_fits len with hlt | hle
    · rw [run, write_of_lt hlt]
    · rw [run, write_of_le hle]
      rfl
  | reserve n =>
    rcases lt_or_ge bw.freeSize.toNat n with hlt | hle
    · rw [run, reserve_of_lt hlt]
    · rw [run, reserve_of_le hle]
      rfl
  | insert src n => rfl

/-- What was written can be read, with the cursor where the write started. -/
theorem read_write (h : (bw.write src len).1 = true) :
    (BufferReader.mk { (bw.write src len).2.toBuffer with pos := bw.pos }).read len =
      (some (load src 0 len.toNat), ⟨(bw.write src len).2.toBuffer⟩) := by
  rcases bw.lt_or_fits len with hlt | hle
  · rw [write_of_lt hlt] at h
    cases h
  · rw [write_of_le hle, BufferReader.read_of_le hle, load_store_self]
    rfl

/-! ## Sequences of operations -/

/-- **Only `operator<<` can leave the buffer**, and it does when the value does not fit. -/
theorem safe_iff_fits (h : bw.pos ≤ bw.size) (op : WriterOp) : bw.Safe op ↔ bw.Fits op := by
  cases op with
  | write src len =>
    refine iff_of_true (Buffer.safe_granted h fun hlt => ?_) trivial
    rw [run, write_of_lt hlt]
  | reserve n =>
    refine iff_of_true (Buffer.safe_granted h fun (hlt : bw.freeSize.toNat < n) => ?_) trivial
    rw [run, reserve_of_lt hlt]
  | insert src n => exact Buffer.safe_unchecked_iff h

theorem pos_le_run (h : bw.pos ≤ bw.size) {op : WriterOp} (hfits : bw.Fits op) :
    (bw.run op).pos ≤ (bw.run op).size := by
  cases op with
  | write src len =>
    rcases bw.lt_or_fits len with hlt | hle
    · rwa [run, write_of_lt hlt]
    · rw [run, write_of_le hle]
      exact Buffer.pos_advance_le h hle
  | reserve n =>
    rcases lt_or_ge bw.freeSize.toNat n with hlt | hle
    · rwa [run, reserve_of_lt hlt]
    · rw [run, reserve_of_le hle]
      exact Buffer.pos_advance_ofNat_le h hle
  | insert src n => exact Buffer.pos_advance_ofNat_le h hfits

theorem throughout_safe_iff (h : bw.pos ≤ bw.size) (ops : List WriterOp) :
    Throughout run (fun bw => bw.InBounds) Safe bw ops ↔
      Throughout run (fun _ => True) Fits bw ops :=
  throughout_iff (I := fun bw => bw.pos ≤ bw.size)
    (fun _ h => iff_of_true (Buffer.inBounds_of_le h) trivial) (fun _ op h => safe_iff_fits h op)
    (fun _ _ h hfits => pos_le_run h hfits) h ops

/-- **What is written within the buffer changes nothing behind its end.** -/
theorem memory_foldl_run (h : bw.pos ≤ bw.size) {ops : List WriterOp}
    (hsafe : Throughout run (fun bw => bw.InBounds) Safe bw ops) {i : ℕ} (hi : bw.size.toNat ≤ i) :
    (ops.foldl run bw).memory i = bw.memory i := by
  induction ops generalizing bw with
  | nil => rfl
  | cons op ops ih =>
    obtain ⟨-, hop, hrest⟩ := hsafe
    rw [List.foldl_cons, ih (pos_le_run h ((safe_iff_fits h op).1 hop)) hrest (by rwa [size_run])]
    refine memory_run_of_outside op (.inr ?_)
    -- the last byte that is touched is in the buffer
    have hpos := BitVec.le_def.1 h
    rcases Nat.eq_zero_or_pos (bw.touched op) with hzero | htouched
    · omega
    · have hlast := hop.inside (bw.touched op - 1) (by omega)
      omega

end BufferWriter

/-! ## Both classes -/

/-- **Cursors stay in bounds exactly if the unchecked operators are used on values that fit**, for
every reader, every writer and every sequence of operations of each. -/
theorem buffers_safe_iff (br : BufferReader) (hbr : br.pos ≤ br.size) (reads : List ReaderOp)
    (bw : BufferWriter) (hbw : bw.pos ≤ bw.size) (writes : List WriterOp) :
    (Throughout BufferReader.run (fun br => br.InBounds) BufferReader.Safe br reads ↔
      Throughout BufferReader.run (fun _ => True) BufferReader.Fits br reads) ∧
    (Throughout BufferWriter.run (fun bw => bw.InBounds) BufferWriter.Safe bw writes ↔
      Throughout BufferWriter.run (fun _ => True) BufferWriter.Fits bw writes) :=
  ⟨BufferReader.throughout_safe_iff hbr reads, BufferWriter.throughout_safe_iff hbw writes⟩

/-- A packet that is its header alone, and a writer for ten bytes. -/
theorem buffers_safe_header :
    Throughout BufferReader.run (fun br => br.InBounds) BufferReader.Safe
      (.onPacket [4, 0, 10, 0] []) [.extract sizeofPacketHeader, .read 1] ∧
    Throughout BufferWriter.run (fun bw => bw.InBounds) BufferWriter.Safe
      ⟨{ memory := fun _ => 0, size := 10 }⟩
      [.reserve sizeofPacketHeader, .write (fun _ => 1) 7, .insert (fun _ => 2) 6] := by
  have hiff := buffers_safe_iff (.onPacket [4, 0, 10, 0] []) (by decide)
    [.extract sizeofPacketHeader, .read 1] ⟨{ memory := fun _ => 0, size := 10 }⟩ (by decide)
    [.reserve sizeofPacketHeader, .write (fun _ => 1) 7, .insert (fun _ => 2) 6]
  have hreads : sizeofPacketHeader ≤ (BufferReader.onPacket [4, 0, 10, 0] []).freeSize.toNat := by
    decide
  exact ⟨hiff.1.2 ⟨trivial, hreads, trivial, trivial, trivial⟩,
    hiff.2.2 ⟨trivial, trivial, trivial, trivial, trivial, by decide, trivial⟩⟩

/-- `ClientPacketHandler::HandlePacket` on a packet of three bytes: `br >> header` reads a byte that
is not in it, `FreeSize()` wraps, and a `Peek` of 1000 bytes passes. -/
theorem not_buffers_safe :
    (BufferReader.onPacket [3, 0, 10] []).pos ≤ (BufferReader.onPacket [3, 0, 10] []).size ∧
    ¬ Throughout BufferReader.run (fun br => br.InBounds) BufferReader.Safe
      (.onPacket [3, 0, 10] []) [.extract sizeofPacketHeader] ∧
    ((BufferReader.onPacket [3, 0, 10] []).extract sizeofPacketHeader).2.pos = 4 ∧
    ((BufferReader.onPacket [3, 0, 10] []).extract sizeofPacketHeader).2.freeSize.toNat =
      2 ^ 32 - 1 ∧
    (((BufferReader.onPacket [3, 0, 10] []).extract sizeofPacketHeader).2.peek 1000).isSome := by
  refine ⟨by decide, ?_, by decide, by decide, ?_⟩
  · rintro ⟨-, hsafe, -⟩
    have hlen := (BufferReader.safe_extract_onPacket_iff (by decide) []).1 hsafe
    exact absurd hlen (by decide)
  · rw [BufferReader.peek_past_end (by decide) (by decide)]
    rfl

end Zelda.ServerCore
