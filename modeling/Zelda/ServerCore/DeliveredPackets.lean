import Zelda.ServerCore.RecvBuffer
import Zelda.ServerCore.BufferReader

/-!
# Delivered packets and their readers

`OnRecv` hands each packet to `OnRecvPacket` as a slice of the receive buffer, and `HandlePacket`
reads the header from it: on the server with the checked `Peek`, whose result is not looked at, on
the client with the unchecked `operator>>`. The handlers take the size field once more and pass
`size - sizeof(PacketHeader)` to `ParseFromArray` as an `int`.

The guards of `OnRecv` compare the bytes that are there with the header and with the size field, but
not the size field with the header. `packets_longEnough_iff`: all delivered packets are long enough
for what is read from them exactly if no size field at a packet boundary is below 4. For the
`operator>>` of the client the same condition decides whether it stays in the packets
(`packets_safe_iff`).
-/

namespace Zelda.ServerCore

open Word

/-! ## Readers -/

section Handlers

variable (beyond packet : List UInt8)

/-- The header of `ServerPacketHandler::HandlePacket`, a local variable that holds `garbage` before
the `Peek`. -/
def serverHeader (garbage : PacketHeader) : PacketHeader :=
  match (BufferReader.onPacket packet []).peek (BitVec.ofNat 32 sizeofPacketHeader) with
  | some bytes => .read bytes
  | none => garbage

/-- The header of `ClientPacketHandler::HandlePacket`; `beyond` is what follows the packet in
memory. -/
def clientHeader : PacketHeader :=
  .read ((BufferReader.onPacket packet beyond).extract sizeofPacketHeader).1

/-- The length that each handler passes to `ParseFromArray`. -/
def payloadSize : ℤ :=
  int32 (sizeT ((PacketHeader.read (packet ++ beyond)).size.toNat - sizeofPacketHeader))

end Handlers

/-- The header is in the packet, whatever else is in memory, and so is the payload. -/
structure LongEnough (p : List UInt8) : Prop where
  header_le : sizeofPacketHeader ≤ p.length
  server : ∀ garbage, serverHeader p garbage = .read p
  client : ∀ beyond, clientHeader beyond p = .read p
  payload : ∀ beyond, 0 ≤ payloadSize beyond p ∧ sizeofPacketHeader + payloadSize beyond p ≤ p.length

theorem PacketHeader.read_append {p : List UInt8} (h : sizeofPacketHeader ≤ p.length)
    (m : List UInt8) : PacketHeader.read (p ++ m) = .read p := by
  unfold sizeofPacketHeader at h
  simp only [PacketHeader.read, List.getD_append p m 0 0 (by omega),
    List.getD_append p m 0 1 (by omega), List.getD_append p m 0 2 (by omega),
    List.getD_append p m 0 3 (by omega)]

/-- Only the first bytes of a packet are read for its header. -/
theorem PacketHeader.read_take {p : List UInt8} (h : sizeofPacketHeader ≤ p.length) :
    PacketHeader.read (p.take sizeofPacketHeader) = .read p := by
  have hlen : sizeofPacketHeader ≤ (p.take sizeofPacketHeader).length := by
    rw [List.length_take]
    omega
  rw [← PacketHeader.read_append hlen (p.drop sizeofPacketHeader), List.take_append_drop]

theorem IsPacket.length_lt {p : List UInt8} (h : IsPacket p) : p.length < 2 ^ 16 := by
  rw [← h.size_eq]
  exact (PacketHeader.read p).size.toNat_lt

theorem longEnough_of_isPacket {p : List UInt8} (h : IsPacket p) : LongEnough p where
  header_le := h.header_le
  server garbage := by
    have hheader : (BitVec.ofNat 32 sizeofPacketHeader).toNat ≤ p.length := h.header_le
    rw [serverHeader, BufferReader.peek_onPacket (h.length_lt.trans (by decide)) hheader]
    exact PacketHeader.read_take h.header_le
  client beyond := by
    rw [clientHeader, BufferReader.extract_onPacket_fst h.header_le]
    exact PacketHeader.read_take h.header_le
  payload beyond := by
    have hsize := h.length_lt
    have hle := h.header_le
    rw [payloadSize, PacketHeader.read_append h.header_le, h.size_eq]
    have hsizeT := sizeT_of_nonneg (x := (p.length : ℤ) - sizeofPacketHeader) (by omega) (by omega)
    rw [int32_of_lt (by omega), hsizeT]
    omega

/-! ## Size fields -/

/-- No packet that is all there announces a size that its header does not fit in. -/
def NoShortSize (l : List UInt8) : Prop :=
  ∀ pos n, Boundary l pos → packetFormat.announced (l.drop pos) = some n →
    n ≤ (l.drop pos).length → sizeofPacketHeader ≤ n

section Stream

variable {l m : List UInt8} {pos n : ℕ}

/-- A later boundary is one of the stream behind the first packet. -/
theorem Boundary.eq_zero_or (h : Boundary l pos) : pos = 0 ∨ ∃ n rest,
    packetFormat.announced l = some n ∧ n ≤ l.length ∧ pos = n + rest ∧ Boundary (l.drop n) rest := by
  induction h with
  | start => exact .inl rfl
  | @next pos n hb ha hle ih =>
    right
    rcases ih with rfl | ⟨n₀, rest, ha₀, hle₀, rfl, hrest⟩
    · rw [List.drop_zero] at ha hle
      exact ⟨n, 0, ha, hle, Nat.add_comm 0 n, .start⟩
    · rw [← List.drop_drop] at ha hle
      exact ⟨n₀, rest + n, ha₀, hle₀, Nat.add_assoc _ _ _, hrest.next ha hle⟩

theorem boundary_first (h : packetFormat.first l = some n) : Boundary l n := by
  obtain ⟨ha, -, hle⟩ := packetFormat.first_eq_some.1 h
  simpa using Boundary.start.next (n := n) (by simpa using ha) (by simpa using hle)

/-- The size fields of a stream that comes in two parts. -/
theorem NoZeroSize.append (hl : NoZeroSize l)
    (hm : NoZeroSize ((Framing.split packetFormat l).2 ++ m)) : NoZeroSize (l ++ m) := by
  induction l using Framing.split_induction packetFormat with
  | none l hf => rwa [Framing.split_of_none packetFormat hf] at hm
  | some l n hf ih =>
    obtain ⟨ha, hpos, hle⟩ := packetFormat.first_eq_some.1 hf
    rw [Framing.split_of_some packetFormat hf] at hm
    have hrest := ih (hl.drop (boundary_first hf)) hm
    intro pos hb hzero
    rcases hb.eq_zero_or with rfl | ⟨n', rest, ha', -, rfl, hb'⟩
    · rw [List.drop_zero, packetFormat.stable ha m] at hzero
      exact hpos.ne' (Option.some.inj hzero)
    · obtain rfl : n = n' := Option.some.inj ((packetFormat.stable ha m).symm.trans ha')
      rw [List.drop_append_of_le_length hle] at hb'
      rw [← List.drop_drop, List.drop_append_of_le_length hle] at hzero
      exact hrest rest hb' hzero

/-- A packet that its header fits in is the one that the header announces. -/
theorem isPacket_take (h : packetFormat.first l = some n) (hn : sizeofPacketHeader ≤ n) :
    IsPacket (l.take n) := by
  obtain ⟨ha, -, hle⟩ := packetFormat.first_eq_some.1 h
  have hlen : (l.take n).length = n := by rw [List.length_take, Nat.min_eq_left hle]
  have hread := PacketHeader.read_append (p := l.take n) (by omega) (l.drop n)
  rw [List.take_append_drop] at hread
  exact ⟨by omega, by rw [← hread, (announced_eq_some.1 ha).2, hlen]⟩

theorem isPacket_of_mem_split {p : List UInt8} (hp : p ∈ (Framing.split packetFormat l).1)
    (hlen : sizeofPacketHeader ≤ p.length) : IsPacket p := by
  induction l using Framing.split_induction packetFormat with
  | none l hf =>
    rw [Framing.split_of_none packetFormat hf] at hp
    cases hp
  | some l n hf ih =>
    rw [Framing.split_of_some packetFormat hf] at hp
    rcases List.mem_cons.1 hp with rfl | hp
    · rw [List.length_take] at hlen
      exact isPacket_take hf (by omega)
    · exact ih hp

/-- The size field is a word of 16 bits. -/
theorem length_lt_of_mem_split {p : List UInt8} (hp : p ∈ (Framing.split packetFormat l).1) :
    p.length < 2 ^ 16 := by
  induction l using Framing.split_induction packetFormat with
  | none l hf =>
    rw [Framing.split_of_none packetFormat hf] at hp
    cases hp
  | some l n hf ih =>
    rw [Framing.split_of_some packetFormat hf] at hp
    rcases List.mem_cons.1 hp with rfl | hp
    · have hsize := (PacketHeader.read l).size.toNat_lt
      rw [(announced_eq_some.1 (packetFormat.first_eq_some.1 hf).1).2] at hsize
      rw [List.length_take]
      omega
    · exact ih hp

/-- The header fits in all packets of a stream exactly if no size field is too small. -/
theorem isPacket_split_iff (h0 : NoZeroSize l) :
    (∀ p ∈ (Framing.split packetFormat l).1, IsPacket p) ↔ NoShortSize l := by
  induction l using Framing.split_induction packetFormat with
  | none l hf =>
    rw [Framing.split_of_none packetFormat hf]
    have hnone : ∀ n, packetFormat.announced l = some n → ¬ n ≤ l.length := by
      intro n ha hle
      have hpos : 0 < n := Nat.pos_of_ne_zero fun h => h0 0 .start (by rw [List.drop_zero, ha, h])
      rw [packetFormat.first_eq_some.2 ⟨ha, hpos, hle⟩] at hf
      cases hf
    refine iff_of_true (by simp) fun pos n hb ha hle => ?_
    rcases hb.eq_zero_or with rfl | ⟨n', rest, ha', hle', -, -⟩
    · rw [List.drop_zero] at ha hle
      exact absurd hle (hnone n ha)
    · exact absurd hle' (hnone n' ha')
  | some l n hf ih =>
    obtain ⟨ha, hpos, hle⟩ := packetFormat.first_eq_some.1 hf
    rw [Framing.split_of_some packetFormat hf, List.forall_mem_cons,
      ih (h0.drop (boundary_first hf))]
    constructor
    · rintro ⟨hfirst, hrest⟩ pos n' hb ha' hle'
      rcases hb.eq_zero_or with rfl | ⟨n₀, rest, ha₀, -, rfl, hb'⟩
      · rw [List.drop_zero, ha] at ha'
        obtain rfl := Option.some.inj ha'
        have hlen := hfirst.header_le
        rw [List.length_take] at hlen
        omega
      · obtain rfl : n = n₀ := Option.some.inj (ha.symm.trans ha₀)
        rw [← List.drop_drop] at ha' hle'
        exact hrest rest n' hb' ha' hle'
    · intro hshort
      refine ⟨isPacket_take hf (hshort 0 n .start (by simpa using ha) (by simpa using hle)),
        fun pos n' hb' ha' hle' => ?_⟩
      rw [List.drop_drop] at ha' hle'
      exact hshort (n + pos) n' ((boundary_first hf).of_drop hb') ha' hle'

end Stream

/-! ## Runs of receives -/

/-- A run of receives that ends with the next one registered has come to no size field 0. -/
theorem noZeroSize_of_registered (chunks : List (List UInt8)) {b b' : RecvBuffer}
    {packets : List (List UInt8)} (hb : b.WellFormed) (hcap : b.capacity < 2 ^ 31)
    (h0 : NoZeroSize b.pending) (hfits : Fits b chunks)
    (hrun : receiveAll b chunks = .registered b' packets) :
    NoZeroSize (b.pending ++ chunks.flatten) := by
  induction chunks generalizing b packets with
  | nil => simpa using h0
  | cons c cs ih =>
    obtain ⟨hne, hfit, hrest⟩ := hfits
    rw [receiveAll] at hrun
    have hfirst : NoZeroSize (b.pending ++ c) := by
      by_contra hzero
      have hstuck := processRecv_stuck hb hcap hne hfit hzero
      rw [hstuck] at hrun
      cases hrun
    obtain ⟨b₁, hstep, hb₁, hpend₁, hcap₁⟩ := processRecv_refines hb hcap hne hfit hfirst
    rw [hstep] at hrun
    cases hcs : receiveAll b₁ cs with
    | registered b₂ packets₂ =>
      have hleft : NoZeroSize b₁.pending := by
        rw [hpend₁, ← drop_flatten_split]
        exact hfirst.drop (boundary_split _)
      have hlast : receiveAll b₁ cs = .registered b' packets₂ := by
        rw [hcs]
        simp only [hcs] at hrun
        rw [(RecvOutcome.registered.inj hrun).1]
      have htail := ih hb₁ (by omega) hleft (hrest _ _ hstep) hlast
      rw [List.flatten_cons, ← List.append_assoc]
      rw [hpend₁] at htail
      exact hfirst.append htail
    | disconnected cause packets₂ => simp [hcs] at hrun
    | stuck => simp [hcs] at hrun

/-- A session that starts empty delivers the packets of the stream. -/
theorem exists_receiveAll {chunks : List (List UInt8)} (hfits : Fits (.new sessionBufferSize) chunks)
    (h0 : NoZeroSize chunks.flatten) : ∃ b, receiveAll (.new sessionBufferSize) chunks =
      .registered b (Framing.split packetFormat chunks.flatten).1 := by
  have hpend := RecvBuffer.pending_new sessionBufferSize
  obtain ⟨b, hrun, -, -⟩ := receiveAll_refines chunks (RecvBuffer.wellFormed_new sessionBufferSize)
    (by decide) hfits (by rwa [hpend, List.nil_append])
  rw [hpend, Framing.feedAll_eq_split packetFormat _ (by decide), List.nil_append] at hrun
  exact ⟨b, hrun⟩

/-- What a run of receives delivers on which `OnRecv` returns: the packets of the stream. -/
theorem packets_eq_split {chunks packets : List (List UInt8)} {b : RecvBuffer}
    (hfits : Fits (.new sessionBufferSize) chunks)
    (hrun : receiveAll (.new sessionBufferSize) chunks = .registered b packets) :
    NoZeroSize chunks.flatten ∧ packets = (Framing.split packetFormat chunks.flatten).1 := by
  have hpend := RecvBuffer.pending_new sessionBufferSize
  have hnone : NoZeroSize ([] : List (List UInt8)).flatten :=
    noZeroSize_flatten fun p hp => absurd hp List.not_mem_nil
  have h0 := noZeroSize_of_registered chunks (RecvBuffer.wellFormed_new sessionBufferSize)
    (by decide) (by rw [hpend]; exact hnone) hfits hrun
  rw [hpend, List.nil_append] at h0
  obtain ⟨b', hrun'⟩ := exists_receiveAll hfits h0
  rw [hrun] at hrun'
  exact ⟨h0, (RecvOutcome.registered.inj hrun').2⟩

/-- **The delivered packets are long enough exactly if no size field is below 4**, for every stream
and every way to cut it on which `OnRecv` returns. They lie in the stream one behind the other. -/
theorem packets_longEnough_iff {chunks packets : List (List UInt8)} {b : RecvBuffer}
    (hfits : Fits (.new sessionBufferSize) chunks)
    (hrun : receiveAll (.new sessionBufferSize) chunks = .registered b packets) :
    packets.flatten <+: chunks.flatten ∧
      ((∀ p ∈ packets, LongEnough p) ↔ NoShortSize chunks.flatten) := by
  obtain ⟨h0, rfl⟩ := packets_eq_split hfits hrun
  refine ⟨⟨_, Framing.split_flatten_append packetFormat chunks.flatten⟩, ?_⟩
  rw [← isPacket_split_iff h0]
  exact forall₂_congr fun p hp => ⟨fun hlong => isPacket_of_mem_split hp hlong.header_le,
    longEnough_of_isPacket⟩

/-- A packet with one byte of payload, one that is its header alone, and one with two bytes. -/
def threePackets : List (List UInt8) := [[5, 0, 10, 0, 7], [4, 0, 11, 0], [6, 0, 10, 0, 8, 9]]

theorem packets_longEnough_threePackets :
    ∃ b, receiveAll (.new sessionBufferSize) [threePackets.flatten] = .registered b threePackets ∧
      ∀ p ∈ threePackets, LongEnough p := by
  have hfits : Fits (.new sessionBufferSize) [threePackets.flatten] :=
    ⟨by decide, by decide, fun _ _ _ => trivial⟩
  have hpackets : ∀ p ∈ threePackets, IsPacket p := by
    intro p hp
    simp only [threePackets, List.mem_cons, List.not_mem_nil, or_false] at hp
    rcases hp with rfl | rfl | rfl <;> exact ⟨by decide, by decide⟩
  have h0 : NoZeroSize [threePackets.flatten].flatten := by
    rw [List.flatten_singleton]
    exact noZeroSize_flatten hpackets
  obtain ⟨b, hrun⟩ := exists_receiveAll hfits h0
  have hnone : packetFormat.first [] = none := by decide
  have hsplit := Framing.split_flatten packetFormat
    (fun p hp => isFrame_of_isPacket (hpackets p hp)) []
  rw [Framing.split_of_none packetFormat hnone, List.append_nil, List.append_nil] at hsplit
  have hfirst : (Framing.split packetFormat [threePackets.flatten].flatten).1 = threePackets :=
    congrArg Prod.fst hsplit
  have hshort : NoShortSize [threePackets.flatten].flatten := by
    rw [← isPacket_split_iff h0, hfirst]
    exact hpackets
  rw [hfirst] at hrun
  exact ⟨b, hrun, (packets_longEnough_iff hfits hrun).2.2 hshort⟩

/-- In a stream of four bytes there is at most one packet. -/
theorem Boundary.four {l : List UInt8} (hl : l.length = 4) {pos n : ℕ}
    (hb : Boundary l pos) (ha : packetFormat.announced (l.drop pos) = some n) :
    n = (PacketHeader.read l).size.toNat ∨ (PacketHeader.read l).size.toNat = 0 := by
  rcases hb.eq_zero_or with rfl | ⟨n', rest, ha', -, rfl, -⟩
  · exact .inl (announced_eq_some.1 ha).2.symm
  · have hlen := (announced_eq_some.1 ha).1
    rw [List.length_drop, sizeofPacketHeader] at hlen
    right
    rw [(announced_eq_some.1 ha').2]
    omega

/-- A size field 3 in front of four bytes: the packet is delivered without the end of its id. -/
theorem not_packets_longEnough : ¬ ∀ (chunks packets : List (List UInt8)) (b : RecvBuffer),
    Fits (.new sessionBufferSize) chunks →
    receiveAll (.new sessionBufferSize) chunks = .registered b packets →
      ∀ p ∈ packets, LongEnough p := by
  intro hall
  have hfits : Fits (.new sessionBufferSize) [[3, 0, 10, 0]] :=
    ⟨by decide, by decide, fun _ _ _ => trivial⟩
  have hsize : (PacketHeader.read [3, 0, 10, 0]).size.toNat = 3 := by decide
  have h0 : NoZeroSize [3, 0, 10, 0] := by
    intro pos hb ha
    have hfour := Boundary.four rfl hb ha
    omega
  obtain ⟨b, hrun⟩ := exists_receiveAll hfits h0
  have hfirst : packetFormat.first ([[3, 0, 10, 0]] : List (List UInt8)).flatten = some 3 := by
    decide
  rw [Framing.split_of_some packetFormat hfirst] at hrun
  have hlong := hall _ _ b hfits hrun _ List.mem_cons_self
  exact absurd hlong.header_le (by decide)

/-- The `operator>>` of the client stays in the delivered packets under the same condition. -/
theorem packets_safe_iff {chunks packets : List (List UInt8)} {b : RecvBuffer}
    (hfits : Fits (.new sessionBufferSize) chunks)
    (hrun : receiveAll (.new sessionBufferSize) chunks = .registered b packets) :
    (∀ p ∈ packets, ∀ beyond, (BufferReader.onPacket p beyond).Safe (.extract sizeofPacketHeader)) ↔
      NoShortSize chunks.flatten := by
  obtain ⟨h0, rfl⟩ := packets_eq_split hfits hrun
  rw [← isPacket_split_iff h0]
  refine forall₂_congr fun p hp => ?_
  have hlen := (length_lt_of_mem_split hp).trans (by decide : 2 ^ 16 < 2 ^ 32)
  constructor
  · intro hsafe
    have hheader := (BufferReader.safe_extract_onPacket_iff hlen []).1 (hsafe [])
    exact isPacket_of_mem_split hp hheader
  · intro hpacket beyond
    exact (BufferReader.safe_extract_onPacket_iff hlen beyond).2 hpacket.header_le

end Zelda.ServerCore
