import Zelda.Foundations.Memory
import Zelda.ServerCore.PacketSession

/-!
# The receive buffer and `Session::ProcessRecv`

A session receives into a `RecvBuffer`, a block of memory with a read and a write cursor. Each
completed receive (`ProcessRecv`) moves the write cursor, hands the unread bytes to `OnRecv`,
moves the read cursor by what it processed, and tidies the cursors up.

The block is an implementation of a queue of unread bytes (`RecvBuffer.pending`), and a receive
refines one step of the abstract receiver of `Foundations/Framing` (`processRecv_refines`). A run
of receives therefore delivers the packets of the whole stream, however it was cut
(`receiveAll_packets`).
-/

namespace Zelda.ServerCore

open Memory

/-- `Session::BUFFER_SIZE` -/
def sessionBufferSize : ℕ := 0x10000

/-- The causes `ProcessRecv` disconnects with. -/
inductive DisconnectCause
  | recv0
  | onWriteOverflow
  | onReadOverflow
  deriving DecidableEq, Repr

/-- `class RecvBuffer` -/
structure RecvBuffer where
  capacity : ℤ
  bufferSize : ℤ
  readPos : ℤ
  writePos : ℤ
  buffer : List UInt8

namespace RecvBuffer

/-- `BUFFER_COUNT` -/
def bufferCount : ℕ := 10

/-- `RecvBuffer::RecvBuffer` -/
def new (bufferSize : ℕ) : RecvBuffer where
  capacity := bufferSize * bufferCount
  bufferSize := bufferSize
  readPos := 0
  writePos := 0
  buffer := List.replicate (bufferSize * bufferCount) 0

variable (b : RecvBuffer)

/-- `RecvBuffer::DataSize` -/
def dataSize : ℤ := b.writePos - b.readPos

/-- `RecvBuffer::FreeSize` -/
def freeSize : ℤ := b.capacity - b.writePos

/-- `RecvBuffer::Clean` -/
def clean : RecvBuffer :=
  if b.dataSize = 0 then
    { b with readPos := 0, writePos := 0 }
  else if b.freeSize < b.bufferSize then
    { b with
      buffer := overwrite b.buffer 0 (slice b.buffer b.readPos.toNat b.dataSize.toNat)
      readPos := 0
      writePos := b.dataSize }
  else
    b

/-- `RecvBuffer::OnRead`; `none` is `false`. -/
def onRead (numOfBytes : ℤ) : Option RecvBuffer :=
  if b.dataSize < numOfBytes then none else some { b with readPos := b.readPos + numOfBytes }

/-- `RecvBuffer::OnWrite`; `none` is `false`. -/
def onWrite (numOfBytes : ℤ) : Option RecvBuffer :=
  if b.freeSize < numOfBytes then none else some { b with writePos := b.writePos + numOfBytes }

/-- A completed `WSARecv` has put the received bytes at `WritePos()`. -/
def received (chunk : List UInt8) : RecvBuffer :=
  { b with buffer := overwrite b.buffer b.writePos.toNat chunk }

/-- The unread bytes: `DataSize()` bytes from `ReadPos()` on. -/
def pending : List UInt8 := slice b.buffer b.readPos.toNat b.dataSize.toNat

/-- The cursors are inside the block, the read cursor not behind the write cursor. -/
structure WellFormed : Prop where
  readPos_nonneg : 0 ≤ b.readPos
  readPos_le : b.readPos ≤ b.writePos
  writePos_le : b.writePos ≤ b.capacity
  length_eq : (b.buffer.length : ℤ) = b.capacity

end RecvBuffer

/-- How a call of `ProcessRecv` ends, with the packets it handed to `OnRecvPacket`. -/
inductive RecvOutcome
  /-- The next receive is registered. -/
  | registered (b : RecvBuffer) (packets : List (List UInt8))
  | disconnected (cause : DisconnectCause) (packets : List (List UInt8))
  /-- `OnRecv` does not return. -/
  | stuck

/-- `Session::ProcessRecv`, with handlers that leave the session connected. -/
def processRecv (b : RecvBuffer) (numOfBytes : ℤ) : RecvOutcome :=
  if numOfBytes = 0 then
    .disconnected .recv0 []
  else
    match b.onWrite numOfBytes with
    | none => .disconnected .onWriteOverflow []
    | some b =>
      match onRecv b.pending with
      | none => .stuck
      | some r =>
        if r.processLen < 0 ∨ b.dataSize < r.processLen then
          .disconnected .onReadOverflow r.packets
        else
          match b.onRead r.processLen with
          | none => .disconnected .onReadOverflow r.packets
          | some b => .registered b.clean r.packets

/-- Receives one chunk after the other, until one does not lead to another receive. -/
def receiveAll : RecvBuffer → List (List UInt8) → RecvOutcome
  | b, [] => .registered b []
  | b, c :: cs =>
    match processRecv (b.received c) c.length with
    | .registered b' packets =>
      match receiveAll b' cs with
      | .registered b'' packets' => .registered b'' (packets ++ packets')
      | .disconnected cause packets' => .disconnected cause (packets ++ packets')
      | .stuck => .stuck
    | outcome => outcome

/-- Every chunk is non-empty and no longer than `FreeSize()` at the time of its receive. -/
def Fits : RecvBuffer → List (List UInt8) → Prop
  | _, [] => True
  | b, c :: cs =>
    c ≠ [] ∧ (c.length : ℤ) ≤ b.freeSize ∧
      ∀ b' packets, processRecv (b.received c) c.length = .registered b' packets → Fits b' cs

/-- A packet: a header whose size field is the length of the whole. -/
structure IsPacket (p : List UInt8) : Prop where
  header_le : sizeofPacketHeader ≤ p.length
  size_eq : (PacketHeader.read p).size.toNat = p.length

/-! ## The buffer as a queue of unread bytes -/

namespace RecvBuffer

variable {b : RecvBuffer}

theorem wellFormed_new (n : ℕ) : (new n).WellFormed where
  readPos_nonneg := le_rfl
  readPos_le := le_rfl
  writePos_le := by simp only [new]; positivity
  length_eq := by simp [new]

theorem pending_new (n : ℕ) : (new n).pending = [] := by simp [pending, dataSize, new]

theorem WellFormed.length_pending (hb : b.WellFormed) : (b.pending.length : ℤ) = b.dataSize := by
  obtain ⟨h0, h1, h2, h3⟩ := hb
  rw [pending, length_slice (by unfold dataSize; omega)]
  unfold dataSize
  omega

theorem WellFormed.length_pending_le (hb : b.WellFormed) :
    (b.pending.length : ℤ) + b.freeSize ≤ b.capacity := by
  obtain ⟨h0, -, -, -⟩ := id hb
  rw [hb.length_pending]
  unfold dataSize freeSize
  omega

/-- A receive followed by `OnWrite` appends the received bytes. -/
theorem WellFormed.onWrite_received (hb : b.WellFormed) {chunk : List UInt8}
    (hfit : (chunk.length : ℤ) ≤ b.freeSize) :
    ∃ b', (b.received chunk).onWrite chunk.length = some b' ∧ b'.WellFormed ∧
      b'.pending = b.pending ++ chunk ∧ b'.capacity = b.capacity := by
  obtain ⟨h0, h1, h2, h3⟩ := hb
  unfold freeSize at hfit
  have hroom : b.writePos.toNat + chunk.length ≤ b.buffer.length := by omega
  refine ⟨{ b.received chunk with writePos := b.writePos + chunk.length }, ?_, ?_, ?_, rfl⟩
  · rw [onWrite, if_neg]
    · rfl
    · simp only [freeSize, received]
      omega
  · refine ⟨h0, ?_, ?_, ?_⟩ <;> simp only [received]
    · omega
    · omega
    · rw [length_overwrite hroom, h3]
  · have hsize : (b.writePos + chunk.length - b.readPos).toNat =
        b.dataSize.toNat + chunk.length := by
      unfold dataSize
      omega
    have hpos : b.readPos.toNat + b.dataSize.toNat = b.writePos.toNat := by
      unfold dataSize
      omega
    simp only [pending, dataSize, received] at hsize hpos ⊢
    rw [hsize, ← slice_append_slice, hpos, slice_overwrite_of_le (by omega) (by omega),
      slice_overwrite_self (by omega)]

/-- `OnRead` drops the bytes that were processed. -/
theorem WellFormed.onRead_eq_some (hb : b.WellFormed) {n : ℕ} (hn : n ≤ b.pending.length) :
    ∃ b', b.onRead n = some b' ∧ b'.WellFormed ∧ b'.pending = b.pending.drop n ∧
      b'.capacity = b.capacity := by
  have hlen := hb.length_pending
  obtain ⟨h0, h1, h2, h3⟩ := hb
  refine ⟨{ b with readPos := b.readPos + n }, ?_, ?_, ?_, rfl⟩
  · rw [onRead, if_neg]
    omega
  · unfold dataSize at hlen
    exact ⟨by simp only; omega, by simp only; omega, h2, h3⟩
  · rw [pending, pending, drop_slice]
    unfold dataSize at hlen ⊢
    simp only
    congr 1 <;> omega

/-- `Clean` keeps the unread bytes. -/
theorem WellFormed.clean (hb : b.WellFormed) :
    b.clean.WellFormed ∧ b.clean.pending = b.pending ∧ b.clean.capacity = b.capacity := by
  have hlen := hb.length_pending
  obtain ⟨h0, h1, h2, h3⟩ := id hb
  unfold RecvBuffer.clean
  split_ifs with hempty hfree
  · refine ⟨⟨le_rfl, le_rfl, by simp only; omega, h3⟩, ?_, rfl⟩
    rw [pending, pending, hempty]
    rfl
  · have hroom : 0 + b.pending.length ≤ b.buffer.length := by unfold dataSize at hlen; omega
    refine ⟨⟨le_rfl, by simp only; omega, by unfold dataSize; simp only; omega, ?_⟩, ?_, rfl⟩
    · rw [← h3]
      exact congrArg Nat.cast (length_overwrite hroom)
    · have hread : slice (overwrite b.buffer 0 b.pending) 0 b.pending.length = b.pending :=
        slice_overwrite_self (Nat.zero_le _)
      have hsize : b.dataSize.toNat = b.pending.length := by omega
      simp only [pending, dataSize, sub_zero, Int.toNat_zero] at hread hsize ⊢
      rwa [← hsize] at hread
  · exact ⟨hb, rfl, rfl⟩

end RecvBuffer

/-! ## Streams without a size field `0` -/

theorem Boundary.append {l : List UInt8} {pos : ℕ} (h : Boundary l pos) (m : List UInt8) :
    Boundary (l ++ m) pos := by
  induction h with
  | start => exact .start
  | @next pos n hb ha hle ih =>
    have hdrop : (l ++ m).drop pos = l.drop pos ++ m :=
      List.drop_append_of_le_length hb.le_length
    refine ih.next (hdrop ▸ packetFormat.stable ha m) ?_
    rw [hdrop, List.length_append]
    omega

theorem NoZeroSize.of_append {l m : List UInt8} (h : NoZeroSize (l ++ m)) : NoZeroSize l := by
  intro pos hb ha
  refine h pos (hb.append m) ?_
  rw [List.drop_append_of_le_length hb.le_length]
  exact packetFormat.stable ha m

/-- The complete packets of a stream end at a packet boundary. -/
theorem boundary_split (l : List UInt8) :
    Boundary l (Framing.split packetFormat l).1.flatten.length := by
  induction l using Framing.split_induction packetFormat with
  | none l hf =>
    rw [Framing.split_of_none packetFormat hf]
    exact .start
  | some l n hf ih =>
    obtain ⟨ha, -, hle⟩ := packetFormat.first_eq_some.1 hf
    have hb : Boundary l n := by
      simpa using Boundary.start.next (n := n) (by simpa using ha) (by simpa using hle)
    rw [Framing.split_of_some packetFormat hf, List.flatten_cons, List.length_append,
      List.length_take, Nat.min_eq_left hle]
    exact hb.of_drop ih

theorem drop_flatten_split (l : List UInt8) :
    l.drop (Framing.split packetFormat l).1.flatten.length = (Framing.split packetFormat l).2 := by
  have h := Framing.split_flatten_append packetFormat l
  calc l.drop (Framing.split packetFormat l).1.flatten.length
      = ((Framing.split packetFormat l).1.flatten ++ (Framing.split packetFormat l).2).drop
          (Framing.split packetFormat l).1.flatten.length := by rw [h]
    _ = (Framing.split packetFormat l).2 := List.drop_left

theorem isFrame_of_isPacket {p : List UInt8} (hp : IsPacket p) :
    Framing.IsFrame packetFormat p := by
  refine ⟨announced_eq_some.2 ⟨hp.header_le, hp.size_eq⟩, ?_⟩
  rintro rfl
  exact absurd hp.header_le (by decide)

/-- At every packet boundary of a stream of packets there is a packet, or nothing. -/
theorem Boundary.exists_flatten {ps : List (List UInt8)} (hps : ∀ p ∈ ps, IsPacket p) {pos : ℕ}
    (hb : Boundary ps.flatten pos) :
    ∃ qs : List (List UInt8), (∀ q ∈ qs, IsPacket q) ∧ ps.flatten.drop pos = qs.flatten := by
  induction hb with
  | start => exact ⟨ps, hps, rfl⟩
  | @next pos n hb ha hle ih =>
    obtain ⟨qs, hqs, hdrop⟩ := ih
    rw [hdrop] at ha
    cases qs with
    | nil => exact absurd (announced_eq_some.1 ha).1 (by decide)
    | cons q qs =>
      have hq := packetFormat.stable (isFrame_of_isPacket (hqs q List.mem_cons_self)).1 qs.flatten
      rw [List.flatten_cons, hq] at ha
      obtain rfl := Option.some.inj ha
      refine ⟨qs, fun r hr => hqs r (List.mem_cons_of_mem q hr), ?_⟩
      rw [← List.drop_drop, hdrop, List.flatten_cons, List.drop_left]

/-- A stream of packets has no size field `0` at a packet boundary. -/
theorem noZeroSize_flatten {ps : List (List UInt8)} (hps : ∀ p ∈ ps, IsPacket p) :
    NoZeroSize ps.flatten := by
  intro pos hb ha
  obtain ⟨qs, hqs, hdrop⟩ := hb.exists_flatten hps
  rw [hdrop] at ha
  cases qs with
  | nil => exact absurd (announced_eq_some.1 ha).1 (by decide)
  | cons q qs =>
    have hq := isFrame_of_isPacket (hqs q List.mem_cons_self)
    rw [List.flatten_cons, packetFormat.stable hq.1 qs.flatten] at ha
    exact hq.2 (List.length_eq_zero_iff.1 (Option.some.inj ha))

/-! ## A receive refines a step of the abstract receiver -/

/-- **`ProcessRecv` refines a step of the abstract receiver**: it hands on the packets that are
complete, and keeps the rest. -/
theorem processRecv_refines {b : RecvBuffer} (hb : b.WellFormed) (hcap : b.capacity < 2 ^ 31)
    {chunk : List UInt8} (hne : chunk ≠ []) (hfit : (chunk.length : ℤ) ≤ b.freeSize)
    (h0 : NoZeroSize (b.pending ++ chunk)) :
    ∃ b', processRecv (b.received chunk) chunk.length =
        .registered b' (Framing.split packetFormat (b.pending ++ chunk)).1 ∧ b'.WellFormed ∧
      b'.pending = (Framing.split packetFormat (b.pending ++ chunk)).2 ∧
      b'.capacity = b.capacity := by
  obtain ⟨b₁, hwrite, hb₁, hpend₁, hcap₁⟩ := hb.onWrite_received hfit
  have hfull : ((b.pending ++ chunk).length : ℤ) ≤ b.capacity := by
    have := hb.length_pending_le
    rw [List.length_append]
    omega
  have hrecv := @onRecv_eq_some (b.pending ++ chunk) (by omega) h0
  -- what was processed lies inside the unread bytes
  have hle := (boundary_split (b.pending ++ chunk)).le_length
  rw [← hpend₁] at hle
  obtain ⟨b₂, hread, hb₂, hpend₂, hcap₂⟩ := hb₁.onRead_eq_some hle
  obtain ⟨hb₃, hpend₃, hcap₃⟩ := hb₂.clean
  have hdata := hb₁.length_pending
  refine ⟨b₂.clean, ?_, hb₃, ?_, by rw [hcap₃, hcap₂, hcap₁]⟩
  · have hlen : (chunk.length : ℤ) ≠ 0 := by
      have := List.length_pos_iff.2 hne
      omega
    rw [hpend₁] at hread hle hdata
    simp only [processRecv, if_neg hlen, hwrite, hpend₁, hrecv, hread]
    rw [if_neg (by omega)]
  · rw [hpend₃, hpend₂, hpend₁, drop_flatten_split]

/-- At a size field `0` the receive does not come to an end. -/
theorem processRecv_stuck {b : RecvBuffer} (hb : b.WellFormed) (hcap : b.capacity < 2 ^ 31)
    {chunk : List UInt8} (hne : chunk ≠ []) (hfit : (chunk.length : ℤ) ≤ b.freeSize)
    (h0 : ¬ NoZeroSize (b.pending ++ chunk)) :
    processRecv (b.received chunk) chunk.length = .stuck := by
  obtain ⟨b₁, hwrite, -, hpend₁, -⟩ := hb.onWrite_received hfit
  have hfull := hb.length_pending_le
  have hlen := List.length_pos_iff.2 hne
  have hall : (b.pending ++ chunk).length < 2 ^ 31 := by
    rw [List.length_append]
    omega
  have hrecv := (onRecv_eq_none_iff hall).2 h0
  simp only [processRecv, if_neg (show ¬ (chunk.length : ℤ) = 0 by omega), hwrite, hpend₁, hrecv]

/-- **A run of receives refines a run of the abstract receiver**, on every stream without a size
field `0` at a packet boundary. -/
theorem receiveAll_refines (chunks : List (List UInt8)) {b : RecvBuffer} (hb : b.WellFormed)
    (hcap : b.capacity < 2 ^ 31) (hfits : Fits b chunks)
    (h0 : NoZeroSize (b.pending ++ chunks.flatten)) :
    ∃ b', receiveAll b chunks =
        .registered b' (Framing.feedAll packetFormat b.pending chunks).1 ∧ b'.WellFormed ∧
      b'.pending = (Framing.feedAll packetFormat b.pending chunks).2 := by
  induction chunks generalizing b with
  | nil => exact ⟨b, rfl, hb, rfl⟩
  | cons c cs ih =>
    obtain ⟨hne, hfit, hrest⟩ := hfits
    rw [List.flatten_cons, ← List.append_assoc] at h0
    obtain ⟨b₁, hstep, hb₁, hpend₁, hcap₁⟩ :=
      processRecv_refines hb hcap hne hfit h0.of_append
    -- the rest of the stream starts at the boundary where the complete packets end
    have hdrop := h0.drop ((boundary_split (b.pending ++ c)).append cs.flatten)
    rw [List.drop_append_of_le_length (boundary_split (b.pending ++ c)).le_length,
      drop_flatten_split, ← hpend₁] at hdrop
    obtain ⟨b₂, hrun, hb₂, hpend₂⟩ := ih hb₁ (by omega) (hrest _ _ hstep) hdrop
    refine ⟨b₂, ?_, hb₂, ?_⟩
    · rw [receiveAll, hstep, Framing.feedAll]
      simp only [hrun, hpend₁]
    · rw [hpend₂, hpend₁, Framing.feedAll]

/-- **Segmentation independence**: however a stream of packets is cut into chunks that fit the
free space at their receive, a session that starts empty hands on exactly these packets, in
order, and registers every next receive. -/
theorem receiveAll_packets (packets chunks : List (List UInt8))
    (hpackets : ∀ p ∈ packets, IsPacket p) (hcut : chunks.flatten = packets.flatten)
    (hfits : Fits (.new sessionBufferSize) chunks) :
    ∃ b, receiveAll (.new sessionBufferSize) chunks = .registered b packets ∧ b.pending = [] := by
  have hpend := RecvBuffer.pending_new sessionBufferSize
  obtain ⟨b, hrun, -, hb⟩ := receiveAll_refines chunks (b := .new sessionBufferSize)
    (RecvBuffer.wellFormed_new _) (by decide) hfits
    (by rw [hpend, List.nil_append, hcut]; exact noZeroSize_flatten hpackets)
  have hframes := Framing.split_flatten packetFormat (fun p hp => isFrame_of_isPacket
    (hpackets p hp)) []
  have hnil : packetFormat.first [] = none := by decide
  rw [Framing.split_of_none packetFormat hnil, List.append_nil, List.append_nil] at hframes
  rw [hpend, Framing.feedAll_eq_split packetFormat _ hnil, List.nil_append, hcut, hframes]
    at hrun hb
  exact ⟨b, hrun, hb⟩

/-- Two packets that arrive in one chunk. -/
theorem receiveAll_two_packets :
    ∃ b, receiveAll (.new sessionBufferSize) [[4, 0, 10, 0, 5, 0, 2, 0, 1]] =
      .registered b [[4, 0, 10, 0], [5, 0, 2, 0, 1]] ∧ b.pending = [] := by
  refine receiveAll_packets _ _ ?_ rfl ⟨by decide, by decide, fun _ _ _ => trivial⟩
  intro p hp
  simp only [List.mem_cons, List.not_mem_nil, or_false] at hp
  rcases hp with rfl | rfl
  · exact ⟨by decide, by decide⟩
  · exact ⟨by decide, by decide⟩

end Zelda.ServerCore
