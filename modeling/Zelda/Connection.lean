import Zelda.Protocol.Serialize
import Zelda.Server.Malformed
import Zelda.ServerCore.DeliveredPackets
import Zelda.ServerCore.Link
import Zelda.ServerCore.SendBuffer

/-!
# From `Send` to the handlers

The messages of the room and of the client on their way through `MakeSendBuffer`, the send queue,
the byte stream and `OnRecvPacket` to the handlers at the other end. The channels of messages that
the rest of the development works with are what this makes of them.

* `delivered_of_run`: a link delivers the packets of the first messages, and of all of them when it
  is empty.
* `moves_handled_of_run`: the server handles the moves that the client has sent.
-/

namespace Zelda

open Memory Word ServerCore
open Protocol (ServerPacket CMove ObjectInfo)

/-! ## Packets -/

/-- The bytes of a packet. -/
def packetOf (size : ℕ) (pktId : UInt16) (body : List UInt8) : List UInt8 :=
  bytes16 (UInt16.ofNat (size + sizeofPacketHeader)) ++ bytes16 pktId ++ body

/-- The bytes that a handler passes to `ParseFromArray`; `beyond` is what follows the packet in
memory. -/
def payload (beyond packet : List UInt8) : List UInt8 :=
  slice (packet ++ beyond) sizeofPacketHeader (payloadSize beyond packet).toNat

section Packets

variable {size : ℕ} {pktId : UInt16} {body : List UInt8}

theorem length_packetOf (hbody : body.length = size) :
    (packetOf size pktId body).length = size + sizeofPacketHeader := by
  rw [packetOf, List.length_append, List.length_append, length_bytes16, length_bytes16, hbody,
    sizeofPacketHeader]
  omega

theorem read_packetOf : PacketHeader.read (packetOf size pktId body) =
    ⟨UInt16.ofNat (size + sizeofPacketHeader), pktId⟩ :=
  PacketHeader.read_bytes16 _ _ _

theorem isPacket_packetOf (hbody : body.length = size) (hsize : size ≤ 65531) :
    IsPacket (packetOf size pktId body) where
  header_le := by rw [length_packetOf hbody]; omega
  size_eq := by
    rw [read_packetOf, length_packetOf hbody]
    simp only [UInt16.toNat_ofNat', sizeofPacketHeader]
    omega

theorem payload_packetOf (beyond : List UInt8) (hbody : body.length = size)
    (hsize : size ≤ 65531) : payload beyond (packetOf size pktId body) = body := by
  have hpacket : IsPacket (packetOf size pktId body) := isPacket_packetOf hbody hsize
  have hlen : (packetOf size pktId body).length = _ := length_packetOf hbody
  have hpayload : (payloadSize beyond (packetOf size pktId body)).toNat = body.length := by
    rw [payloadSize, PacketHeader.read_append hpacket.header_le, hpacket.size_eq, hlen]
    have hsizeT := sizeT_of_nonneg (x := ((size + sizeofPacketHeader : ℕ) : ℤ) - sizeofPacketHeader)
      (by omega) (by omega)
    rw [int32_of_lt (by omega)]
    omega
  have hdrop : (packetOf size pktId body ++ beyond).drop sizeofPacketHeader = body ++ beyond := rfl
  rw [payload, hpayload, slice, hdrop, List.take_left]

end Packets

/-! ## Messages that fit into a packet -/

instance (info : ObjectInfo) : Decidable info.Encodable :=
  decidable_of_iff (info.objectid < 2 ^ 64 ∧ info.byteSizeLong ≤ WireFormat.maxSize)
    ⟨fun h => ⟨h.1, h.2⟩, fun h => ⟨h.objectid, h.size⟩⟩

instance : DecidablePred ServerPacket.Encodable
  | .sEnterGame _ accountId => inferInstanceAs (Decidable (accountId < 2 ^ 64))
  | .sMyPlayer info => inferInstanceAs (Decidable info.Encodable)
  | .sAddObject objects => inferInstanceAs (Decidable (∀ info ∈ objects, info.Encodable))
  | .sRemoveObject ids => inferInstanceAs (Decidable ((∀ id ∈ ids, id < 2 ^ 64) ∧ _))
  | .sMove info => inferInstanceAs (Decidable info.Encodable)

/-- What `MakeSendBuffer` of the server uses of protobuf, for the messages with one number. -/
def serverProtobuf (pktId : UInt16) :
    Protobuf { pkt : ServerPacket // pkt.Encodable ∧ pkt.pktId = pktId } where
  byteSizeLong pkt := pkt.1.byteSizeLong
  serialize pkt := pkt.1.internalSerialize
  parseFromArray payload :=
    (ServerPacket.parseFromArray pktId payload).bind fun r =>
      if h : r.1 = true ∧ r.2.Encodable ∧ r.2.pktId = pktId then some ⟨r.2, h.2⟩ else none
  length_serialize pkt := ServerPacket.length_internalSerialize pkt.2.1
  parse_serialize := by
    rintro ⟨pkt, h, rfl⟩
    rw [ServerPacket.parseFromArray_internalSerialize h, Option.bind_some, dif_pos ⟨rfl, h, rfl⟩]

/-- A message of the server that fits into a packet. -/
structure Protocol.ServerPacket.Sendable (pkt : ServerPacket) : Prop where
  encodable : pkt.Encodable
  size : pkt.byteSizeLong ≤ 65531

/-- A message of the client that fits into a packet. -/
structure Protocol.CMove.Sendable (pkt : CMove) : Prop where
  encodable : pkt.info.Encodable
  size : pkt.byteSizeLong ≤ 65531

/-- `C_Move` -/
def cMoveId : UInt16 := 10

/-- The packet that `MakeSendBuffer` makes of a message of the server. -/
def Protocol.ServerPacket.packet (pkt : ServerPacket) : List UInt8 :=
  packetOf pkt.byteSizeLong pkt.pktId pkt.internalSerialize

/-- The packet that `Make_C_Move` makes. -/
def Protocol.CMove.packet (pkt : CMove) : List UInt8 :=
  packetOf pkt.byteSizeLong cMoveId pkt.internalSerialize

theorem makeSendBuffer_serverPacket {pkt : ServerPacket} (h : pkt.Sendable) :
    ∃ b, makeSendBuffer (serverProtobuf pkt.pktId) ⟨pkt, h.encodable, rfl⟩ pkt.pktId = .ok b ∧
      b.sent = pkt.packet := by
  refine ⟨_, makeSendBuffer_of_le _ h.size, ?_⟩
  rw [SendBuffer.sent, slice, List.drop_zero]
  exact List.take_of_length_le (length_packetBytes _).le

/-- The packets to a client. -/
def serverWire : Wire { pkt : ServerPacket // pkt.Sendable } where
  bytes pkt := pkt.1.packet
  isPacket pkt :=
    isPacket_packetOf (ServerPacket.length_internalSerialize pkt.2.encodable) pkt.2.size

/-- The packets of a client. -/
def clientWire : Wire { pkt : CMove // pkt.Sendable } where
  bytes pkt := pkt.1.packet
  isPacket pkt := isPacket_packetOf (Protocol.length_infoField pkt.2.encodable) pkt.2.size

/-! ## Handlers -/

/-- `ServerPacketHandler::HandlePacket`, with the header uninitialised before the `Peek`. -/
def Server.receivePacket (P : Server.Platform) (s : Server.SessionId) (garbage : PacketHeader)
    (beyond packet : List UInt8) (w : Server.World) : Server.Result :=
  if (serverHeader packet garbage).id = cMoveId then
    Server.receivePayload P s (payload beyond packet) w
  else .ok w

theorem receivePacket_packet {P : Server.Platform} {s : Server.SessionId} {pkt : CMove}
    (h : pkt.Sendable) (garbage : PacketHeader) (beyond : List UInt8) (w : Server.World) :
    Server.receivePacket P s garbage beyond pkt.packet w = Server.receiveCMove P s pkt w := by
  have hbody := Protocol.length_infoField h.encodable
  have hheader : serverHeader pkt.packet garbage = ⟨_, cMoveId⟩ :=
    ((longEnough_of_isPacket (clientWire.isPacket ⟨pkt, h⟩)).server garbage).trans read_packetOf
  have hpayload : payload beyond pkt.packet = pkt.internalSerialize :=
    payload_packetOf beyond hbody h.size
  rw [Server.receivePacket, hheader, if_pos rfl, hpayload, Server.receivePayload,
    CMove.parseFromArray_internalSerialize h.encodable]

/-! ## Runs -/

section Runs

variable {T : Type*}

/-- Nothing waits in the queue, nobody is about to call `WSASend`, and everything has arrived. -/
structure Emptied {M : Type*} (W : Wire M) (L : Link T M) : Prop where
  sendQueue : L.session.sendQueue = []
  calling : ∀ t, L.session.pc t ≠ .wsaSend
  arrived : L.arrived = L.wire W

/-- While a `WSASend` is under way nobody calls another one. -/
theorem emptied_of_caught_up {M : Type*} {W : Wire M} {L : Link T M} (h : L.Sound W)
    (hout : 0 < L.session.sendsOutstanding) (hqueue : L.session.sendQueue = [])
    (harrived : L.arrived = L.wire W) : Emptied W L := by
  refine ⟨hqueue, fun t ht => ?_, harrived⟩
  apply h.token.token.nobody hout t
  rw [ht]
  trivial

variable [DecidableEq T]

/-- The packets that have been delivered are those of the first messages sent, and of all of them
when the link is empty. -/
theorem delivered_of_run {M : Type*} {W : Wire M} {L : Link T M}
    (h : Reaches (Link.Step W) (fun _ e => e.accepted) {} L) :
    ∃ seen, seen <+: L.session.sent ∧ L.delivered = seen.map W.bytes ∧
      (Emptied W L → seen = L.session.sent) := by
  have hsound := Link.sound_of_run h
  obtain ⟨rest, hrest⟩ := hsound.delivered_prefix
  obtain ⟨seen, later, hsent, hseen, -⟩ := List.map_eq_append_iff.1 hrest.symm
  by_cases hempty : Emptied W L
  · refine ⟨L.session.sent, List.prefix_rfl, ?_, fun _ => rfl⟩
    have hissued := hsound.order.sent
    rw [hsound.issued.after hempty.calling, hempty.sendQueue, List.append_nil] at hissued
    rw [hsound.delivered_eq hempty.arrived, Link.issued, hissued]
  · exact ⟨seen, ⟨later, hsent.symm⟩, hseen.symm, fun hall => absurd hall hempty⟩

/-- **The server handles the moves that the client has sent**, in order and with nothing in between:
each packet that `OnRecvPacket` is called with does what its move does, whatever follows it in
memory, and no move is left when the link is empty. -/
theorem moves_handled_of_run {L : Link T { pkt : CMove // pkt.Sendable }}
    (h : Reaches (Link.Step clientWire) (fun _ e => e.accepted) {} L) :
    ∃ moves, moves <+: L.session.sent.map Subtype.val ∧
      List.Forall₂ (fun packet pkt => ∀ P s garbage beyond w,
        Server.receivePacket P s garbage beyond packet w = Server.receiveCMove P s pkt w)
        L.delivered moves ∧
      (Emptied clientWire L → moves = L.session.sent.map Subtype.val) := by
  obtain ⟨seen, hprefix, hdelivered, hall⟩ := delivered_of_run h
  refine ⟨seen.map Subtype.val, hprefix.map _, ?_, fun hempty => by rw [hall hempty]⟩
  rw [hdelivered, List.forall₂_map_left_iff, List.forall₂_map_right_iff, List.forall₂_same]
  exact fun pkt _ P s garbage beyond w => receivePacket_packet pkt.2 garbage beyond w

end Runs

/-! ## A move that arrives -/

/-- A step to the right. -/
def oneMove : { pkt : CMove // pkt.Sendable } :=
  ⟨⟨{ objectid := 2, state := Protocol.move, dir := Protocol.dirRight, posx := 6, posy := 5 }⟩,
    ⟨by decide, by decide⟩, by decide⟩

theorem moves_handled_of_run_oneMove : ∃ packet, ∀ P s garbage beyond w,
    Server.receivePacket P s garbage beyond packet w = Server.receiveCMove P s oneMove.1 w := by
  have hsession := reaches_of_follows (C := fun _ e => e.accepted)
    (s := ({} : Session ℕ { pkt : CMove // pkt.Sendable }))
    [.processConnect 0, .send 1 oneMove, .registerSend 1, .drain 1, .wsaSend 1 .accepted]
    (by decide)
  have hrun := Link.reaches_session (W := clientWire) (L := {}) hsession
  obtain ⟨L, hlater, hkept, harrived⟩ := (Link.sound_of_run hrun).exists_caught_up
  obtain ⟨moves, -, hhandled, hall⟩ := moves_handled_of_run (hrun.trans hlater)
  have hempty : Emptied clientWire L := emptied_of_caught_up (Link.sound_of_run (hrun.trans hlater))
    (by rw [hkept]; decide) (by rw [hkept]; rfl) harrived
  have hmoves : moves = [oneMove.1] := (hall hempty).trans (by rw [hkept]; rfl)
  rw [hmoves, List.forall₂_cons_right_iff] at hhandled
  obtain ⟨packet, _, hpacket, -, -⟩ := hhandled
  exact ⟨packet, hpacket⟩

end Zelda
