import Zelda.PacketSizes
import Zelda.Replicas

/-!
# From the room to the client

The packets that arrive at a client, which handles them one after the other as long as no handler
reads a flipbook out of bounds (`receiveAll?`).

`client_mirrors_of_run`: as long as directions are in range, a client handles whatever its link
delivers, and is a replica of the room when everything has reached it.
-/

namespace Zelda

open ServerCore Server Client
open Protocol (ServerPacket ObjectId)

variable {w : World} {tilemap : Server.Tilemap} {s : SessionId} {pid : ObjectId}
  {pq : PriorityQueue PQNode PQNode.cost}

/-! ## Handlers -/

/-- `ClientPacketHandler::HandlePacket`, with what follows the packet in memory. What
`ParseFromArray` returns is not looked at. -/
def Client.SceneManager.receivePacket? (m : SceneManager) (packet beyond : List UInt8) :
    Option SceneManager :=
  match ServerPacket.parseFromArray (clientHeader beyond packet).id (payload beyond packet) with
  | some (_, pkt) => m.handlePacket? pkt
  | none => some m

/-- The client after it has handled packets one after the other. -/
def Client.SceneManager.receiveAll? (m : SceneManager)
    (received : List (List UInt8 × List UInt8)) : Option SceneManager :=
  received.foldlM (fun m r => m.receivePacket? r.1 r.2) m

theorem receivePacket?_packet {pkt : ServerPacket} (h : pkt.Sendable) (m : SceneManager)
    (beyond : List UInt8) : m.receivePacket? pkt.packet beyond = m.handlePacket? pkt := by
  have hbody := ServerPacket.length_internalSerialize h.encodable
  have hheader : clientHeader beyond pkt.packet = ⟨_, pkt.pktId⟩ :=
    ((longEnough_of_isPacket (serverWire.isPacket ⟨pkt, h⟩)).client beyond).trans read_packetOf
  have hpayload : payload beyond pkt.packet = pkt.internalSerialize :=
    payload_packetOf beyond hbody h.size
  rw [SceneManager.receivePacket?, hheader, hpayload,
    ServerPacket.parseFromArray_internalSerialize h.encodable]

/-- Packets of messages are handled as the messages. -/
theorem receiveAll?_eq {m : SceneManager} {received : List (List UInt8 × List UInt8)}
    {pkts : List { pkt : ServerPacket // pkt.Sendable }}
    (h : received.map Prod.fst = pkts.map serverWire.bytes) :
    m.receiveAll? received = m.replay? (pkts.map Subtype.val) := by
  induction pkts generalizing m received with
  | nil =>
    rw [List.map_nil, List.map_eq_nil_iff] at h
    rw [h]
    rfl
  | cons pkt pkts ih =>
    obtain ⟨r, received, rfl, hfirst, hrest⟩ := List.map_eq_cons_iff.1 h
    have hpkt : m.receivePacket? r.1 r.2 = m.handlePacket? pkt.1 := by
      rw [hfirst]
      exact receivePacket?_packet pkt.2 m r.2
    rw [SceneManager.receiveAll?, List.foldlM_cons, hpkt, List.map_cons, SceneManager.replay?,
      List.foldlM_cons]
    exact bind_congr fun m' => ih hrest

/-! ## Runs -/

/-- A client that is somewhere after some packets is somewhere after the first of them. -/
theorem exists_replay?_of_prefix {m : SceneManager} {seen pkts : List ServerPacket}
    (hearlier : seen <+: pkts) (h : ∃ m', m.replay? pkts = some m') :
    ∃ m', m.replay? seen = some m' := by
  obtain ⟨later, rfl⟩ := hearlier
  obtain ⟨m', h⟩ := h
  rw [SceneManager.replay?_append] at h
  obtain ⟨m₁, hseen, -⟩ := Option.bind_eq_some_iff.1 h
  exact ⟨m₁, hseen⟩

section Runs

variable {T : Type*} [DecidableEq T] {L : Link T { pkt : ServerPacket // pkt.Sendable }}
  {received : List (List UInt8 × List UInt8)}

/-- **A client that everything has reached is a replica of the room.** The server runs, with one of
the four directions in every packet that names an object; the session of a player has been asked to
send what the room sends to it, and the link has run. Then the client can handle the packets that
were delivered, whatever follows them in memory, and is where some first part of the messages brings
it; when the link is empty, it is a replica of the room. -/
theorem client_mirrors_of_run
    (hw : Reaches (RoomStep (.accepting pq)) RoomAimed (World.opened tilemap) w)
    (hids : w.idGenerator ≤ 2 ^ 31) (hs : w.room.session? pid = some s)
    (hL : Reaches (Link.Step serverWire) (fun _ e => e.accepted) {} L)
    (hsent : L.session.sent.map Subtype.val = sentTo s w.trace)
    (hreceived : received.map Prod.fst = L.delivered) :
    ∃ m, ({} : SceneManager).receiveAll? received = some m ∧
      (∃ seen, seen <+: sentTo s w.trace ∧ ({} : SceneManager).replay? seen = some m) ∧
      (Emptied serverWire L → IsReplica m w pid) := by
  obtain ⟨hsynced, hdir⟩ := aimed_of_run hw
  have hclient : ({} : SceneManager).replay? (sentTo s w.trace) = some (clientOf w s) :=
    hdir.clientOf? s
  obtain ⟨seen, hearlier, hdelivered, hall⟩ := delivered_of_run hL
  have hseen : seen.map Subtype.val <+: sentTo s w.trace := hsent ▸ hearlier.map _
  have hreplay : ({} : SceneManager).receiveAll? received =
      ({} : SceneManager).replay? (seen.map Subtype.val) :=
    receiveAll?_eq (hreceived.trans hdelivered)
  obtain ⟨m, hm⟩ := exists_replay?_of_prefix hseen ⟨_, hclient⟩
  refine ⟨m, hreplay.trans hm, ⟨_, hseen, hm⟩, fun hempty => ?_⟩
  rw [hall hempty, hsent, hclient] at hm
  obtain rfl := Option.some.inj hm
  exact hsynced.isReplica hids hs

end Runs

/-! ## What a run sends can be put into packets -/

/-- What a session is sent in a run of the room can be put into packets. -/
theorem exists_sendables_of_run
    {P : Platform} (h : Reaches (RoomStep P) (fun w ev => (∃ s, ev = .enterRoom s) → Uncrowded w.room)
      (World.opened tilemap) w) (hids : w.idGenerator ≤ 2 ^ 64) (s : SessionId) :
    ∃ pkts : List { pkt : ServerPacket // pkt.Sendable },
      pkts.map Subtype.val = sentTo s w.trace := by
  have hopened : Fitting (World.opened tilemap) :=
    ⟨(fitting_init tilemap).named, (fitting_init tilemap).sendable⟩
  have hw : Fitting w := upheld_fitting.roomRun (fun _ s hfit => hfit ⟨s, rfl⟩)
    (fun _ _ _ => trivial) h ((registry_init tilemap).of_still (still_opened tilemap)) hopened
  have hall : ∀ pkt ∈ sentTo s w.trace, pkt.Sendable := fun pkt hmem =>
    hw.sendable hids s pkt (mem_sentTo hmem)
  exact ⟨(sentTo s w.trace).attachWith _ hall, List.attachWith_map_subtype_val hall⟩

/-! ## A monster that comes and goes -/

section Sends

variable {M : Type*} {W : Wire M}

/-- Thread 1 has registered the first send, and thread 2 sends. -/
theorem reaches_sends {S : Session ℕ M} (hreg : S.sendRegistered = true) (hpc : S.pc 2 = .idle)
    (ms : List M) : Reaches SessionStep (fun _ e => e.accepted) S
      { S with sendQueue := S.sendQueue ++ ms, sent := S.sent ++ ms } := by
  induction ms generalizing S with
  | nil =>
    simp only [List.append_nil]
    exact .refl S
  | cons m ms ih =>
    have hsend : S.send 2 m =
        { S with sendQueue := S.sendQueue ++ [m], sent := S.sent ++ [m] } := by
      rw [Session.send, hreg, if_pos rfl, ← hpc, Function.update_eq_self]
    have hstep : SessionStep S (.send 2 m) _ := .send hpc
    rw [hsend] at hstep
    have hrest :=
      ih (S := { S with sendQueue := S.sendQueue ++ [m], sent := S.sent ++ [m] }) hreg hpc
    simp only [List.append_assoc, List.singleton_append] at hrest
    exact .head ⟨_, rfl, hstep⟩ hrest

/-- Messages that are sent can all arrive. -/
theorem exists_emptied {msgs : List M} (hne : msgs ≠ []) :
    ∃ L : Link ℕ M, Reaches (Link.Step W) (fun _ e => e.accepted) {} L ∧ L.session.sent = msgs ∧
      Emptied W L := by
  obtain ⟨m, ms, rfl⟩ := List.exists_cons_of_ne_nil hne
  let first : Session ℕ M := [.processConnect 0, .send 1 m].foldl Session.act {}
  let queued : Session ℕ M := { first with sendQueue := [m] ++ ms, sent := [m] ++ ms }
  let last : Session ℕ M :=
    [.registerSend 1, .drain 1, .wsaSend 1 .accepted].foldl Session.act queued
  have hfirst : Reaches SessionStep (fun _ e => e.accepted) ({} : Session ℕ M) first :=
    reaches_of_follows _ rfl
  have hqueued : Reaches SessionStep (fun _ e => e.accepted) first queued :=
    reaches_sends rfl rfl ms
  have hlast : Reaches SessionStep (fun _ e => e.accepted) queued last := reaches_of_follows _ rfl
  have hrun := Link.reaches_session (W := W) (L := {}) (hfirst.trans (hqueued.trans hlast))
  obtain ⟨L, hlater, hkept, harrived⟩ := (Link.sound_of_run hrun).exists_caught_up
  have hL := hrun.trans hlater
  have hsound := Link.sound_of_run hL
  refine ⟨L, hL, congrArg Session.sent hkept, emptied_of_caught_up hsound ?_ ?_ harrived⟩
  · rw [hkept]
    exact Nat.one_pos
  · rw [hkept]
    rfl

end Sends

/-- The client of the second player sees how the first one strikes the monster down. -/
theorem client_mirrors_of_run_conquered : ∃ (L : Link ℕ { pkt : ServerPacket // pkt.Sendable })
    (m : SceneManager), ({} : SceneManager).receiveAll? (L.delivered.map (·, [])) = some m ∧
      1 ∉ m.scene.ids ∧ 3 ∈ m.scene.ids := by
  have huncrowded : Reaches (RoomStep (.always .accepted))
      (fun w ev => (∃ s, ev = .enterRoom s) → Uncrowded w.room) (World.opened {}) conquered := by
    refine Reaches.of_follows (fun w ev hev => ?_)
      (show Reaches.follows (fun w ev => (ev.next? w).isSome && decide (Uncrowded w.room))
        RoomEvent.act (World.opened {}) _ = true by decide +kernel)
    obtain ⟨hpossible, hfit⟩ := Bool.and_eq_true_iff.1 hev
    exact ⟨fun _ => of_decide_eq_true hfit, roomStep_act hpossible⟩
  have hplayer : conquered.room.session? 3 = some 1 := by decide +kernel
  obtain ⟨pkts, hpkts⟩ := exists_sendables_of_run huncrowded (by decide +kernel) 1
  have hne : pkts ≠ [] := by
    rintro rfl
    have hnil : (sentTo 1 conquered.trace).isEmpty = false := by decide +kernel
    rw [← hpkts] at hnil
    cases hnil
  obtain ⟨L, hL, hsent, hempty⟩ := exists_emptied (W := serverWire) hne
  have hreceived : (L.delivered.map fun packet => (packet, ([] : List UInt8))).map Prod.fst =
      L.delivered := by
    rw [List.map_map]
    exact List.map_id _
  obtain ⟨m, hm, -, hreplica⟩ := client_mirrors_of_run aimed_conquered (by decide +kernel) hplayer
    hL (hsent ▸ hpkts) hreceived
  refine ⟨L, m, hm, ?_, ((hreplica hempty).mem_ids 3).2 (.inl (by decide +kernel))⟩
  rw [(hreplica hempty).mem_ids]
  decide +kernel

end Zelda
