import Zelda.ServerCore.RecvBuffer

/-!
# Building a packet

`MakeSendBuffer` of the packet handlers puts a header in front of a serialized message. Both the
message's size and the packet's size go through a `uint16`, so only messages of at most
`65531` bytes come through: `makeSendBuffer_roundTrip_iff`. A message of `65532` to `65535` bytes
makes the packet size wrap below the size of the header, and the header is written outside the
allocation; a larger one is announced too short, and the assertion on `SerializeToArray` fails.
-/

namespace Zelda.ServerCore

open Memory Word

/-- What the handlers use of protobuf for messages of type `M`: `ByteSizeLong`, the bytes
`SerializeToArray` writes, and `ParseFromArray`, which inverts it. -/
structure Protobuf (M : Type*) where
  byteSizeLong : M → ℕ
  serialize : M → List UInt8
  parseFromArray : List UInt8 → Option M
  length_serialize : ∀ m, (serialize m).length = byteSizeLong m
  parse_serialize : ∀ m, parseFromArray (serialize m) = some m

/-- `class SendBuffer` -/
structure SendBuffer where
  buffer : List UInt8
  writeSize : ℤ

/-- The bytes handed to `WSASend`: `WriteSize()` bytes from `Buffer()` on. -/
def SendBuffer.sent (b : SendBuffer) : List UInt8 := slice b.buffer 0 b.writeSize.toNat

/-- What can go wrong while a packet is built. -/
inductive BuildFault
  | writeOutOfBounds
  | assertionFailed
  deriving DecidableEq, Repr

/-- A write into an allocation. -/
def store (buffer : List UInt8) (pos : ℕ) (data : List UInt8) : Except BuildFault (List UInt8) :=
  if pos + data.length ≤ buffer.length then .ok (overwrite buffer pos data)
  else .error .writeOutOfBounds

variable {M : Type*} (P : Protobuf M)

/-- `SerializeToArray(p, n)` with `p` at position `pos`: whether it succeeded, and the memory. -/
def Protobuf.serializeToArray (m : M) (buffer : List UInt8) (pos n : ℕ) :
    Except BuildFault (Bool × List UInt8) :=
  if n < P.byteSizeLong m then .ok (false, buffer)
  else (store buffer pos (P.serialize m)).map fun buffer => (true, buffer)

/-- `MakeSendBuffer`, with asserts enabled. -/
def makeSendBuffer (m : M) (pktId : UInt16) : Except BuildFault SendBuffer := do
  let dataSize := UInt16.ofNat (P.byteSizeLong m)
  let packetSize := UInt16.ofNat (dataSize.toNat + sizeofPacketHeader)
  let buffer := List.replicate packetSize.toNat 0
  let buffer ← store buffer 0 (bytes16 packetSize)
  let buffer ← store buffer 2 (bytes16 pktId)
  let (success, buffer) ← P.serializeToArray m buffer sizeofPacketHeader dataSize.toNat
  if success then return ⟨buffer, packetSize.toNat⟩ else .error .assertionFailed

/-- The packet is built inside its allocation and, received in whole, is delivered as one packet
with the given id and with a payload that parses back to the message. -/
def RoundTrips (m : M) (pktId : UInt16) : Prop :=
  ∃ b, makeSendBuffer P m pktId = .ok b ∧
    ∃ packet, onRecv b.sent = some ⟨b.sent.length, [packet]⟩ ∧
      (PacketHeader.read packet).id = pktId ∧
      P.parseFromArray (slice packet sizeofPacketHeader
        ((PacketHeader.read packet).size.toNat - sizeofPacketHeader)) = some m

/-! ## Messages that fit -/

theorem store_append_replicate (front data : List UInt8) {n : ℕ} (h : data.length ≤ n) :
    store (front ++ List.replicate n 0) front.length data =
      .ok ((front ++ data) ++ List.replicate (n - data.length) 0) := by
  rw [store, if_pos (by rw [List.length_append, List.length_replicate]; omega),
    overwrite_append_replicate front data 0 n]

/-- The bytes of a packet that is built. -/
def packetBytes (m : M) (pktId : UInt16) : List UInt8 :=
  bytes16 (UInt16.ofNat (P.byteSizeLong m + sizeofPacketHeader)) ++ bytes16 pktId ++ P.serialize m

variable {P} {m : M} (pktId : UInt16)

theorem makeSendBuffer_of_le (h : P.byteSizeLong m ≤ 65531) :
    makeSendBuffer P m pktId =
      .ok ⟨packetBytes P m pktId, (P.byteSizeLong m + sizeofPacketHeader : ℕ)⟩ := by
  have hdata : (UInt16.ofNat (P.byteSizeLong m)).toNat = P.byteSizeLong m := by
    rw [UInt16.toNat_ofNat']
    omega
  have hpacket : (UInt16.ofNat (P.byteSizeLong m + sizeofPacketHeader)).toNat =
      P.byteSizeLong m + sizeofPacketHeader := by
    rw [UInt16.toNat_ofNat', sizeofPacketHeader]
    omega
  set size := UInt16.ofNat (P.byteSizeLong m + sizeofPacketHeader) with hsize
  have hser := P.length_serialize m
  -- the three writes, each behind the last one
  have h₁ := store_append_replicate [] (bytes16 size) (n := P.byteSizeLong m + 4) (by simp)
  have h₂ := store_append_replicate (bytes16 size) (bytes16 pktId)
    (n := P.byteSizeLong m + 2) (by simp)
  have h₃ := store_append_replicate (bytes16 size ++ bytes16 pktId) (P.serialize m)
    (n := P.byteSizeLong m) (by rw [hser])
  simp only [List.nil_append, List.length_nil, length_bytes16, List.length_append, hser,
    Nat.sub_self, List.replicate_zero, List.append_nil, Nat.add_sub_cancel,
    show P.byteSizeLong m + 4 - 2 = P.byteSizeLong m + 2 by omega, Nat.reduceAdd] at h₁ h₂ h₃
  simp only [makeSendBuffer, Protobuf.serializeToArray, hdata, ← hsize, hpacket, packetBytes]
  simp only [sizeofPacketHeader, bind, Except.bind, h₁, h₂, lt_irrefl, if_false, h₃, Except.map,
    pure, Except.pure, if_true]

theorem length_packetBytes : (packetBytes P m pktId).length =
    P.byteSizeLong m + sizeofPacketHeader := by
  simp only [packetBytes, List.length_append, length_bytes16, P.length_serialize,
    sizeofPacketHeader]
  omega

theorem PacketHeader.read_bytes16 (size id : UInt16) (l : List UInt8) :
    PacketHeader.read (bytes16 size ++ bytes16 id ++ l) = ⟨size, id⟩ := by
  show PacketHeader.mk (word16 (UInt8.ofNat size.toNat) (UInt8.ofNat (size.toNat / 256)))
    (word16 (UInt8.ofNat id.toNat) (UInt8.ofNat (id.toNat / 256))) = ⟨size, id⟩
  rw [word16_bytes16, word16_bytes16]

theorem read_packetBytes : PacketHeader.read (packetBytes P m pktId) =
    ⟨UInt16.ofNat (P.byteSizeLong m + sizeofPacketHeader), pktId⟩ :=
  PacketHeader.read_bytes16 _ _ _

theorem isPacket_packetBytes (h : P.byteSizeLong m ≤ 65531) :
    IsPacket (packetBytes P m pktId) where
  header_le := by rw [length_packetBytes]; omega
  size_eq := by
    rw [read_packetBytes, length_packetBytes]
    simp only [UInt16.toNat_ofNat', sizeofPacketHeader]
    omega

theorem roundTrips_of_le (h : P.byteSizeLong m ≤ 65531) : RoundTrips P m pktId := by
  have hp := isPacket_packetBytes pktId h
  have hps : ∀ p ∈ [packetBytes P m pktId], IsPacket p := by
    simpa only [List.mem_singleton, forall_eq] using hp
  have hsent : slice (packetBytes P m pktId) 0 (P.byteSizeLong m + sizeofPacketHeader) =
      packetBytes P m pktId := by
    rw [slice, List.drop_zero, List.take_of_length_le (length_packetBytes pktId).le]
  refine ⟨_, makeSendBuffer_of_le pktId h, packetBytes P m pktId, ?_, ?_, ?_⟩
  · have hlen : (packetBytes P m pktId).length < 2 ^ 31 := by
      rw [length_packetBytes, sizeofPacketHeader]
      omega
    have h0 := noZeroSize_flatten hps
    have hsplit := Framing.split_flatten packetFormat
      (fun p hp' => isFrame_of_isPacket (hps p hp')) []
    rw [Framing.split_of_none packetFormat (by decide : packetFormat.first [] = none),
      List.append_nil, List.append_nil] at hsplit
    rw [List.flatten_singleton] at h0 hsplit
    simp only [SendBuffer.sent, Int.toNat_natCast, hsent]
    rw [onRecv_eq_some hlen h0, hsplit, List.flatten_singleton]
  · rw [read_packetBytes]
  · rw [hp.size_eq, length_packetBytes, Nat.add_sub_cancel, slice, packetBytes, List.drop_left',
      List.take_of_length_le (P.length_serialize m).le, P.parse_serialize]
    rfl

/-! ## Messages that do not fit -/

/-- Whatever a packet with too large a message runs into, it is not built. -/
theorem makeSendBuffer_of_lt (h : 65531 < P.byteSizeLong m) :
    ∃ fault, makeSendBuffer P m pktId = .error fault := by
  set dataSize := UInt16.ofNat (P.byteSizeLong m) with hdata
  set packetSize := UInt16.ofNat (dataSize.toNat + sizeofPacketHeader) with hpacket
  have hd : dataSize.toNat = P.byteSizeLong m % 65536 := by rw [hdata, UInt16.toNat_ofNat']
  have hp : packetSize.toNat = (dataSize.toNat + 4) % 65536 := by
    rw [hpacket, UInt16.toNat_ofNat', sizeofPacketHeader]
  simp only [makeSendBuffer, ← hdata, ← hpacket]
  cases h₁ : store (List.replicate packetSize.toNat 0) 0 (bytes16 packetSize) with
  | error fault => exact ⟨fault, rfl⟩
  | ok buffer =>
    cases h₂ : store buffer 2 (bytes16 pktId) with
    | error fault => exact ⟨fault, by simp only [bind, Except.bind, h₂]⟩
    | ok buffer' =>
      -- the header fits, so the size of the message was cut to something smaller
      have hroom : 4 ≤ packetSize.toNat := by
        rw [store] at h₁ h₂
        split at h₁
        · rename_i hle
          obtain rfl := Except.ok.inj h₁
          split at h₂
          · rename_i hle'
            rwa [length_overwrite hle, List.length_replicate] at hle'
          · cases h₂
        · cases h₁
      have hlt : dataSize.toNat < P.byteSizeLong m := by omega
      exact ⟨.assertionFailed, by simp only [bind, Except.bind, h₂, Protobuf.serializeToArray,
        if_pos hlt, Bool.false_eq_true, if_false]⟩

/-- **A message round-trips exactly when it has at most `65531` bytes.** -/
theorem makeSendBuffer_roundTrip_iff (P : Protobuf M) (m : M) (pktId : UInt16) :
    RoundTrips P m pktId ↔ P.byteSizeLong m ≤ 65531 := by
  constructor
  · rintro ⟨b, hb, -⟩
    by_contra h
    obtain ⟨fault, hfault⟩ := makeSendBuffer_of_lt pktId (P := P) (m := m) (by omega)
    rw [hb] at hfault
    cases hfault
  · exact roundTrips_of_le pktId

/-- Messages that are already bytes. -/
def rawBytes : Protobuf (List UInt8) where
  byteSizeLong := List.length
  serialize := id
  parseFromArray := some
  length_serialize _ := rfl
  parse_serialize _ := rfl

/-- A message of `65532` bytes: the header of its packet is written outside the allocation. -/
theorem not_roundTrips_large : ¬ RoundTrips rawBytes (List.replicate 65532 0) 5 := by
  rintro ⟨b, hb, -⟩
  obtain ⟨fault, hfault⟩ := makeSendBuffer_of_lt (P := rawBytes) (m := List.replicate 65532 0) 5
    (by
      show 65531 < (List.replicate 65532 (0 : UInt8)).length
      rw [List.length_replicate]
      omega)
  rw [hb] at hfault
  cases hfault

end Zelda.ServerCore
