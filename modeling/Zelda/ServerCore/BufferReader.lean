import Zelda.Foundations.Buffer
import Zelda.Foundations.Runs

/-!
# BufferReader

`Peek` and `Read` compare the length with `FreeSize()` before they copy, `operator>>` copies at
once. A sequence of these operations stays in the buffer exactly if no `operator>>` of it is used on
a value that is larger than what is left (`BufferReader.throughout_safe_iff`), and then what it reads
from a packet does not depend on what follows the packet (`BufferReader.results_onPacket`). Once one
is, the cursor is past the end, `FreeSize()` has wrapped and `Peek` and `Read` let nearly every
length pass (`BufferReader.peek_past_end`).
-/

namespace Zelda.ServerCore

open Memory

/-- `class BufferReader`. The bytes behind the buffer are part of its memory. -/
structure BufferReader extends Buffer UInt8 32

namespace BufferReader

variable (br : BufferReader)

/-- A reader on a packet, `beyond` is what follows it in memory. -/
def onPacket (packet beyond : List UInt8) : BufferReader :=
  ⟨{ memory := cells (packet ++ beyond) 0, size := BitVec.ofNat 32 packet.length }⟩

/-- `BufferReader::Peek`; `none` is `false`, and then nothing is written. The overload for a value
passes its `sizeof`. -/
def peek (len : BitVec 32) : Option (List UInt8) :=
  if br.freeSize < len then none else some (load br.memory br.pos.toNat len.toNat)

/-- `BufferReader::Read` -/
def read (len : BitVec 32) : Option (List UInt8) × BufferReader :=
  match br.peek len with
  | none => (none, br)
  | some bytes => (some bytes, ⟨br.advance len⟩)

/-- `BufferReader::operator>>` for a value of `n` bytes -/
def extract (n : ℕ) : List UInt8 × BufferReader :=
  (load br.memory br.pos.toNat n, ⟨br.advance (BitVec.ofNat 32 n)⟩)

end BufferReader

/-- The operations of a reader. -/
inductive ReaderOp
  | peek (len : BitVec 32)
  | read (len : BitVec 32)
  | extract (n : ℕ)

/-- The size of the value. -/
def ReaderOp.bytes : ReaderOp → ℕ
  | .peek len => len.toNat
  | .read len => len.toNat
  | .extract n => n

namespace BufferReader

/-- The reader after an operation. -/
def run (br : BufferReader) : ReaderOp → BufferReader
  | .peek _ => br
  | .read len => (br.read len).2
  | .extract n => (br.extract n).2

/-- The bytes that an operation gives. -/
def result (br : BufferReader) : ReaderOp → Option (List UInt8)
  | .peek len => br.peek len
  | .read len => (br.read len).1
  | .extract n => some (br.extract n).1

/-- What the operations of a sequence give. -/
def results : BufferReader → List ReaderOp → List (Option (List UInt8))
  | _, [] => []
  | br, op :: ops => br.result op :: results (br.run op) ops

/-- How many bytes from the cursor on an operation reads. -/
def touched (br : BufferReader) : ReaderOp → ℕ
  | .peek len => br.granted len.toNat
  | .read len => br.granted len.toNat
  | .extract n => n

/-- The operation is safe in the buffer. -/
def Safe (br : BufferReader) (op : ReaderOp) : Prop :=
  br.toBuffer.Safe op.bytes (br.touched op) (br.run op).toBuffer

/-- An `operator>>` is not used on a value that is larger than what is left. -/
def Fits (br : BufferReader) : ReaderOp → Prop
  | .peek _ => True
  | .read _ => True
  | .extract n => n ≤ br.freeSize.toNat

instance (br : BufferReader) : (op : ReaderOp) → Decidable (br.Fits op)
  | .peek _ => .isTrue trivial
  | .read _ => .isTrue trivial
  | .extract n => inferInstanceAs (Decidable (n ≤ br.freeSize.toNat))

variable {br : BufferReader} {len : BitVec 32}

/-! ## One operation -/

theorem peek_of_lt (h : br.freeSize < len) : br.peek len = none := if_pos h

theorem peek_of_le (h : len ≤ br.freeSize) :
    br.peek len = some (load br.memory br.pos.toNat len.toNat) := if_neg (BitVec.not_lt.2 h)

theorem read_of_lt (h : br.freeSize < len) : br.read len = (none, br) := by
  rw [read, peek_of_lt h]

theorem read_of_le (h : len ≤ br.freeSize) :
    br.read len = (some (load br.memory br.pos.toNat len.toNat), ⟨br.advance len⟩) := by
  rw [read, peek_of_le h]

/-- `Read` gives what `Peek` gives. -/
theorem read_fst : (br.read len).1 = br.peek len := by
  rcases br.lt_or_fits len with hlt | hle
  · rw [read_of_lt hlt, peek_of_lt hlt]
  · rw [read_of_le hle, peek_of_le hle]

/-- Past the end nothing is refused that the wrapped difference covers. -/
theorem peek_past_end (h : br.size < br.pos)
    (hlen : len.toNat ≤ 2 ^ 32 - (br.pos.toNat - br.size.toNat)) :
    br.peek len = some (load br.memory br.pos.toNat len.toNat) := by
  refine peek_of_le (BitVec.le_def.2 ?_)
  rwa [Buffer.toNat_freeSize_of_lt h]

theorem peek_congr {m : ℕ → UInt8}
    (h : ∀ i < br.granted len.toNat, m (br.pos.toNat + i) = br.memory (br.pos.toNat + i)) :
    peek ⟨{ br.toBuffer with memory := m }⟩ len = br.peek len := by
  rcases br.lt_or_fits len with hlt | hle
  · rw [peek_of_lt hlt]
    exact peek_of_lt hlt
  · rw [Buffer.granted_of_le (BitVec.le_def.1 hle)] at h
    rw [peek_of_le hle, ← load_congr h]
    exact peek_of_le hle

/-- What an operation gives depends on nothing but the bytes that it reads. -/
theorem result_congr (op : ReaderOp) {m : ℕ → UInt8}
    (h : ∀ i < br.touched op, m (br.pos.toNat + i) = br.memory (br.pos.toNat + i)) :
    result ⟨{ br.toBuffer with memory := m }⟩ op = br.result op := by
  cases op with
  | peek len => exact peek_congr h
  | read len =>
    rw [result, result, read_fst, read_fst]
    exact peek_congr h
  | extract n => exact congrArg some (load_congr h)

/-- An operation moves the cursor and nothing else. -/
theorem run_eq (op : ReaderOp) : br.run op = ⟨{ br.toBuffer with pos := (br.run op).pos }⟩ := by
  cases op with
  | peek len => rfl
  | read len =>
    rcases br.lt_or_fits len with hlt | hle
    · rw [run, read_of_lt hlt]
    · rw [run, read_of_le hle]
      rfl
  | extract n => rfl

/-- Where the cursor goes does not depend on the bytes. -/
theorem pos_run_memory (op : ReaderOp) (m : ℕ → UInt8) :
    (run ⟨{ br.toBuffer with memory := m }⟩ op).pos = (br.run op).pos := by
  cases op with
  | peek len => rfl
  | read len =>
    rcases br.lt_or_fits len with hlt | hle
    · have hother : read ⟨{ br.toBuffer with memory := m }⟩ len = _ := read_of_lt hlt
      rw [run, run, read_of_lt hlt, hother]
    · have hother : read ⟨{ br.toBuffer with memory := m }⟩ len = _ := read_of_le hle
      rw [run, run, read_of_le hle, hother]
      rfl
  | extract n => rfl

/-! ## Sequences of operations -/

/-- **Only `operator>>` can leave the buffer**, and it does when the value does not fit. -/
theorem safe_iff_fits (h : br.pos ≤ br.size) (op : ReaderOp) : br.Safe op ↔ br.Fits op := by
  cases op with
  | peek len => exact iff_of_true (Buffer.safe_granted h fun _ => rfl) trivial
  | read len =>
    refine iff_of_true (Buffer.safe_granted h fun hlt => ?_) trivial
    rw [run, read_of_lt hlt]
  | extract n => exact Buffer.safe_unchecked_iff h

theorem pos_le_run (h : br.pos ≤ br.size) {op : ReaderOp} (hfits : br.Fits op) :
    (br.run op).pos ≤ (br.run op).size := by
  cases op with
  | peek len => exact h
  | read len =>
    rcases br.lt_or_fits len with hlt | hle
    · rwa [run, read_of_lt hlt]
    · rw [run, read_of_le hle]
      exact Buffer.pos_advance_le h hle
  | extract n => exact Buffer.pos_advance_ofNat_le h hfits

theorem throughout_safe_iff (h : br.pos ≤ br.size) (ops : List ReaderOp) :
    Throughout run (fun br => br.InBounds) Safe br ops ↔
      Throughout run (fun _ => True) Fits br ops :=
  throughout_iff (I := fun br => br.pos ≤ br.size)
    (fun _ h => iff_of_true (Buffer.inBounds_of_le h) trivial) (fun _ op h => safe_iff_fits h op)
    (fun _ _ h hfits => pos_le_run h hfits) h ops

/-- Readers that agree up to the end of the buffer give the same, as long as they stay in it. -/
theorem results_congr (h : br.pos ≤ br.size) {ops : List ReaderOp}
    (hsafe : Throughout run (fun br => br.InBounds) Safe br ops) {m : ℕ → UInt8}
    (hm : ∀ i < br.size.toNat, m i = br.memory i) :
    results ⟨{ br.toBuffer with memory := m }⟩ ops = br.results ops := by
  induction ops generalizing br with
  | nil => rfl
  | cons op ops ih =>
    obtain ⟨-, hop, hrest⟩ := hsafe
    have hrun : run ⟨{ br.toBuffer with memory := m }⟩ op =
        ⟨{ (br.run op).toBuffer with memory := m }⟩ := by
      rw [run_eq, pos_run_memory]
      nth_rewrite 2 [run_eq]
      rfl
    have hsize : (br.run op).size = br.size := by rw [run_eq]
    have hmemory : (br.run op).memory = br.memory := by rw [run_eq]
    refine List.cons_eq_cons.2 ⟨result_congr op fun i hi => hm _ (hop.inside i hi), ?_⟩
    rw [hrun]
    refine ih (pos_le_run h ((safe_iff_fits h op).1 hop)) hrest fun i hi => ?_
    rw [hsize] at hi
    rw [hmemory]
    exact hm i hi

/-! ## Readers on packets -/

section Packets

variable {packet : List UInt8}

theorem toNat_freeSize_onPacket (h : packet.length < 2 ^ 32) (beyond : List UInt8) :
    (onPacket packet beyond).freeSize.toNat = packet.length := by
  have hsize : (onPacket packet beyond).size.toNat = packet.length := by
    rw [onPacket, BitVec.toNat_ofNat, Nat.mod_eq_of_lt h]
  have hpos : (onPacket packet beyond).pos.toNat = 0 := rfl
  rw [Buffer.toNat_freeSize (BitVec.le_def.2 (by omega)), hsize, hpos, Nat.sub_zero]

theorem load_onPacket {n : ℕ} (h : n ≤ packet.length) (beyond : List UInt8) :
    load (onPacket packet beyond).memory (onPacket packet beyond).pos.toNat n = packet.take n := by
  have hcells : n ≤ (packet ++ beyond).length := by
    rw [List.length_append]
    omega
  simp only [onPacket, BitVec.toNat_zero]
  rw [load_cells (by omega), slice, List.drop_zero, List.take_append_of_le_length h]

/-- The first bytes of a packet, as `operator>>` gives them. -/
theorem extract_onPacket_fst {n : ℕ} (h : n ≤ packet.length) (beyond : List UInt8) :
    ((onPacket packet beyond).extract n).1 = packet.take n := load_onPacket h beyond

/-- The first bytes of a packet, as the checked operations give them. -/
theorem peek_onPacket (h : packet.length < 2 ^ 32) (hlen : len.toNat ≤ packet.length)
    (beyond : List UInt8) : (onPacket packet beyond).peek len = some (packet.take len.toNat) := by
  have hfree := toNat_freeSize_onPacket h beyond
  rw [peek_of_le (BitVec.le_def.2 (by omega)), load_onPacket hlen]

/-- **What is read within a packet does not depend on what follows it in memory.** -/
theorem results_onPacket (h : packet.length < 2 ^ 32) (beyond : List UInt8) {ops : List ReaderOp}
    (hsafe : Throughout run (fun br => br.InBounds) Safe (onPacket packet []) ops) :
    results (onPacket packet beyond) ops = (onPacket packet []).results ops := by
  refine results_congr (BitVec.le_def.2 (Nat.zero_le _)) hsafe fun i hi => ?_
  have hsize : (onPacket packet []).size.toNat = packet.length := Nat.mod_eq_of_lt h
  rw [hsize] at hi
  simp only [onPacket, cells, List.append_nil, List.getD_eq_getElem?_getD,
    List.getElem?_append_left hi]

/-- A first `operator>>` on a packet is safe exactly if the value is in the packet. -/
theorem safe_extract_onPacket_iff {n : ℕ} (h : packet.length < 2 ^ 32) (beyond : List UInt8) :
    (onPacket packet beyond).Safe (.extract n) ↔ n ≤ packet.length := by
  have hpos : (onPacket packet beyond).pos ≤ (onPacket packet beyond).size :=
    BitVec.le_def.2 (Nat.zero_le _)
  rw [safe_iff_fits hpos, Fits, toNat_freeSize_onPacket h]

end Packets

end BufferReader

end Zelda.ServerCore
