import Zelda.Connection
import Zelda.Server.Deeds

/-!
# The sizes of packets

The header of a packet has 16 bits for its size, and `MakeSendBuffer` computes with them. Of the
messages of the server only `S_AddObject` grows with the room. An object takes up to 125 bytes of
it, since the only names are those that the server gives, and so the messages fit as long as nobody
enters a room with more than 524 objects (`packets_fit_of_run`).
-/

namespace Zelda

open ServerCore Server
open Protocol (ObjectInfo ObjectId ServerPacket CMove)

variable {P : Platform} {w w' : World} {s : SessionId} {info : ObjectInfo} {msg : ServerPacket}
  {tilemap : Server.Tilemap}

/-! ## One object -/

namespace Protocol

theorem varintSize_le {v n : ℕ} (h : v < 2 ^ (n + 1)) :
    WireFormat.varintSize v ≤ (n * 9 + 73) / 64 := by
  have hlog : v.log2 < n + 1 := by
    rcases Nat.eq_zero_or_pos v with rfl | hpos
    · exact Nat.succ_pos n
    · exact (Nat.log2_lt hpos.ne').2 h
  rw [WireFormat.varintSize, WireFormat.log2_or_one]
  omega

theorem int32Size_le (v : Int32) : int32Size v ≤ 11 := by
  have hsize := varintSize_le (n := 63) (signExtended_lt v)
  rw [int32Size]
  split <;> omega

theorem uint64Size_le {v : ℕ} (h : v < 2 ^ 64) : uint64Size v ≤ 11 := by
  have hsize := varintSize_le (n := 63) h
  rw [uint64Size]
  split <;> omega

end Protocol

/-- The names that the server gives. -/
def Named (info : ObjectInfo) : Prop := info.name = "" ∨ info.name = "MonsterName"

theorem Named.byteSizeLong_le (h : Named info) (hid : info.objectid < 2 ^ 64) :
    info.byteSizeLong ≤ 123 := by
  have hname : Protocol.stringSize info.name ≤ 13 := by
    rcases h with hname | hname <;>
    · rw [hname]
      decide
  have hobjectid := Protocol.uint64Size_le hid
  have hint := Protocol.int32Size_le
  have h₁ := hint info.objecttype
  have h₂ := hint info.state
  have h₃ := hint info.dir
  have h₄ := hint info.hp
  have h₅ := hint info.maxhp
  have h₆ := hint info.attack
  have h₇ := hint info.defence
  have h₈ := hint info.posx
  have h₉ := hint info.posy
  rw [ObjectInfo.byteSizeLong]
  omega

theorem Named.encodable (h : Named info) (hid : info.objectid < 2 ^ 64) : info.Encodable :=
  ⟨hid, (h.byteSizeLong_le hid).trans (by decide)⟩

/-- With its number and its size in front. -/
theorem Named.infoSize_le (h : Named info) (hid : info.objectid < 2 ^ 64) :
    Protocol.infoSize info ≤ 125 := by
  have hsize := h.byteSizeLong_le hid
  have hprefix := Protocol.varintSize_le (n := 6) (hsize.trans_lt (by decide))
  rw [Protocol.infoSize, Protocol.messageSize]
  omega

/-! ## Messages -/

theorem sendable_sMyPlayer (h : Named info) (hid : info.objectid < 2 ^ 64) :
    (ServerPacket.sMyPlayer info).Sendable :=
  ⟨h.encodable hid, (h.infoSize_le hid).trans (by decide)⟩

theorem sendable_sMove (h : Named info) (hid : info.objectid < 2 ^ 64) :
    (ServerPacket.sMove info).Sendable :=
  ⟨h.encodable hid, (h.infoSize_le hid).trans (by decide)⟩

theorem sendable_sAddObject {objects : List ObjectInfo}
    (h : ∀ info ∈ objects, Named info ∧ info.objectid < 2 ^ 64) (hlength : objects.length ≤ 524) :
    (ServerPacket.sAddObject objects).Sendable := by
  have hsize : ∀ info ∈ objects, Protocol.infoSize info ≤ 125 :=
    fun info hmem => (h info hmem).1.infoSize_le (h info hmem).2
  have htotal : Protocol.SAddObject.byteSizeLong objects ≤ objects.length * 125 := by
    rw [Protocol.SAddObject.byteSizeLong]
    clear h hlength
    induction objects with
    | nil => exact le_rfl
    | cons info objects ih =>
      have hrest := ih fun info' hmem => hsize info' (List.mem_cons_of_mem info hmem)
      have hfirst := hsize info List.mem_cons_self
      rw [Protocol.infoSize, Protocol.messageSize] at hfirst
      rw [List.map_cons, List.sum_cons, List.length_cons]
      omega
  refine ⟨fun info hmem => (h info hmem).1.encodable (h info hmem).2, htotal.trans ?_⟩
  omega

theorem sendable_sRemoveObject {id : ObjectId} (hid : id < 2 ^ 64) :
    (ServerPacket.sRemoveObject [id]).Sendable := by
  have hvarint := Protocol.varintSize_le (n := 63) hid
  have hsize : Protocol.SRemoveObject.byteSizeLong [id] ≤ 12 := by
    have hprefix := Protocol.varintSize_le (n := 6) (hvarint.trans_lt (by decide))
    rw [Protocol.SRemoveObject.byteSizeLong, List.map_singleton, List.sum_singleton]
    split <;> omega
  refine ⟨⟨?_, hsize.trans (by decide)⟩, hsize.trans (by decide)⟩
  exact List.forall_mem_singleton.2 hid

theorem sendable_sEnterGame : (ServerPacket.sEnterGame true 0).Sendable :=
  ⟨by decide, by decide⟩

/-! ## Everything that is sent -/

/-- All names are the server's own, and what has been sent fits into packets, as long as the ids do
not wrap around. -/
structure Fitting (w : World) : Prop where
  named : ∀ {ref info}, w.room.info? ref = some info → Named info
  sendable : w.idGenerator ≤ 2 ^ 64 → ∀ s msg, .send s msg ∈ w.trace → msg.Sendable

/-- Not more objects than fit into one message. -/
def Uncrowded (r : GameRoom) : Prop := r.players.size + r.monsters.size ≤ 524

instance : DecidablePred Uncrowded := fun r =>
  inferInstanceAs (Decidable (r.players.size + r.monsters.size ≤ 524))

theorem length_infos_le (r : GameRoom) : r.infos.length ≤ r.players.size + r.monsters.size := by
  refine (List.length_filterMap_le _ _).trans ?_
  rw [GameRoom.refs, List.length_append, List.length_map, List.length_map,
    Std.ExtTreeMap.length_keys, Std.ExtTreeMap.length_keys]

/-- The events that come are sends of messages that fit. -/
theorem Fitting.of_trace {evs : List Server.Event} (h : Fitting w)
    (hnamed : ∀ {ref info}, w'.room.info? ref = some info → Named info)
    (hids : w.idGenerator ≤ w'.idGenerator) (htrace : w'.trace = w.trace ++ evs)
    (hevs : w'.idGenerator ≤ 2 ^ 64 → ∀ s msg, .send s msg ∈ evs → msg.Sendable) :
    Fitting w' := by
  refine ⟨hnamed, fun hle s msg hmem => ?_⟩
  rw [htrace, List.mem_append] at hmem
  rcases hmem with hold | hnew
  · exact h.sendable (hids.trans hle) s msg hold
  · exact hevs hle s msg hnew

theorem eq_of_send_mem_announce {r : GameRoom} {msg msg' : ServerPacket}
    (h : Server.Event.send s msg' ∈ r.announce msg) : msg' = msg := by
  obtain ⟨t, -, heq⟩ := List.mem_map.1 h
  exact (Server.Event.send.inj heq).2.symm

theorem Fitting.deed (h : Fitting w) (hr : Registry w) (hd : Deed w w') : Fitting w' := by
  -- the objects that are announced have ids that were handed out
  have hid : ∀ {ref : ObjectRef}, w'.idGenerator ≤ 2 ^ 64 → w.room.Registered ref →
      ref.id < 2 ^ 64 := fun hle hreg =>
    (hr.lt_idGenerator hreg).trans_le (hd.idGenerator ▸ hle)
  have hinfoid : ∀ {ref info}, w'.idGenerator ≤ 2 ^ 64 → w.room.info? ref = some info →
      info.objectid < 2 ^ 64 := by
    intro ref info hle hi
    rw [hr.objectid hi]
    exact hid hle (GameRoom.registered_of_info? hi)
  have hids := hd.idGenerator.ge
  cases hd with
  | skill id =>
    refine h.of_trace h.named hids (World.trace_log ..) fun _ s msg hmem => ?_
    cases List.mem_singleton.1 hmem
  | @hit _ attacker victim hhit =>
    cases hhit with
    | missed => exact h
    | @hurt a v _ ha hv _ hq =>
      have hold : Named v := h.named hv
      have hname : Named (v.setHp (hpAfter a v)) := hold
      refine h.of_trace (fun hi => ?_) hids (hq.trace.trans (List.append_assoc _ _ _)) ?_
      · rw [hq.room, World.info?_modifyInfo, World.room_log, hv] at hi
        split at hi
        · obtain rfl := Option.some.inj hi
          exact hname
        · exact h.named hi
      · intro hle s msg hmem
        rcases List.mem_append.1 hmem with hmem | hmem
        · cases List.mem_singleton.1 hmem
        · rw [eq_of_send_mem_announce hmem]
          exact sendable_sMove hname (show v.objectid < _ from hinfoid hle hv)
    | killed ha hv _ hq =>
      refine h.of_trace (fun hi => ?_) hids (hq.trace.trans (List.append_assoc _ _ _)) ?_
      · rw [hq.room, World.info?_erase, World.room_log] at hi
        split at hi
        · cases hi
        · exact h.named hi
      · intro hle s msg hmem
        rcases List.mem_append.1 hmem with hmem | hmem
        · cases List.mem_singleton.1 hmem
        · rw [eq_of_send_mem_announce hmem]
          exact sendable_sRemoveObject (hid hle (GameRoom.registered_of_info? hv))
  | leave hreg hq =>
    refine h.of_trace (fun hi => ?_) hids hq.trace fun hle s msg hmem => ?_
    · rw [hq.room, World.info?_erase] at hi
      split at hi
      · cases hi
      · exact h.named hi
    · rw [eq_of_send_mem_announce hmem]
      exact sendable_sRemoveObject (hid hle hreg)
  | think hm hsame =>
    refine ⟨fun hi => ?_, h.sendable⟩
    rw [World.info?_modifyMonster_of_getElem? hm] at hi
    split at hi
    · obtain rfl := Option.some.inj hi
      rw [Named, hsame.name]
      exact h.named (GameRoom.info?_of_monster hm)
    · exact h.named hi
  | announce hinfo hq =>
    refine h.of_trace (fun hi => h.named (hq.room ▸ hi)) hids hq.trace fun hle s msg hmem => ?_
    rw [eq_of_send_mem_announce hmem]
    exact sendable_sMove (h.named hinfo) (hinfoid hle hinfo)

theorem moveInfo_name (pkt : CMove) (info : ObjectInfo) : (moveInfo pkt info).name = info.name := by
  simp only [moveInfo, clampHp, overwriteInfo]
  split_ifs <;> rfl

theorem Fitting.entered (h : Fitting w) (hr : Registry w) (hfit : Uncrowded w.room)
    (he : Entered s w w') : Fitting w' := by
  have hname : Named (enteringPlayer w.idGenerator s).info := .inl rfl
  have hgenerator : w.idGenerator < w'.idGenerator := he.idGenerator ▸ Nat.lt_succ_self _
  have hinfo := he.info?
  obtain ⟨hsends, hadd⟩ := he
  have hlink : (w.link s).room = w.room := rfl
  refine h.of_trace (fun {ref info} hi => ?_) (Nat.le_of_lt hgenerator)
    (hadd.trace.trans ((congrArg (· ++ _) hsends.trace).trans (List.append_assoc _ _ _))) ?_
  · rw [hinfo] at hi
    split at hi
    · obtain rfl := Option.some.inj hi
      exact hname
    · exact h.named hi
  · intro hle t msg hmem
    have hnew : (enteringPlayer w.idGenerator s).info.objectid < 2 ^ 64 :=
      Nat.lt_of_lt_of_le hgenerator hle
    rw [List.mem_append, List.mem_cons, List.mem_singleton] at hmem
    rcases hmem with (hmem | hmem) | hmem
    · cases hmem
      exact sendable_sMyPlayer hname hnew
    · cases hmem
      refine sendable_sAddObject (fun info hmem => ?_) ((length_infos_le w.room).trans hfit)
      obtain ⟨ref, hi⟩ := GameRoom.mem_infos.1 hmem
      have hlt := hr.lt_idGenerator (GameRoom.registered_of_info? hi)
      rw [hr.objectid hi]
      exact ⟨h.named hi, hlt.trans hnew⟩
    · rw [eq_of_send_mem_announce hmem]
      exact sendable_sAddObject (List.forall_mem_singleton.2 ⟨hname, hnew⟩) (show 1 ≤ 524 by decide)

theorem upheld_fitting : Upheld Uncrowded (fun _ => True) Fitting where
  still {w w' s evs} hevs hq h := by
    refine h.of_trace (fun hi => h.named (hq.room ▸ hi)) hq.idGenerator.ge hq.trace ?_
    intro _ t msg hmem
    cases List.mem_singleton.1 (hevs hmem)
    exact sendable_sEnterGame
  deed hr h hd := h.deed hr hd
  move {w pkt} ref _ _ h := by
    refine ⟨fun hi => ?_, h.sendable⟩
    rw [World.info?_modifyInfo] at hi
    split at hi
    · obtain ⟨info, hold, rfl⟩ := Option.map_eq_some_iff.1 hi
      rw [Named, moveInfo_name]
      exact h.named hold
    · exact h.named hi
  enter hfit hr _ h he := h.entered hr hfit he

theorem fitting_init (tilemap : Server.Tilemap) : Fitting (World.init tilemap) where
  named hi := by
    obtain ⟨-, rfl⟩ := info?_init hi
    exact .inr rfl
  sendable _ _ _ hmem := absurd hmem List.not_mem_nil

/-- **Every message that the server sends fits into a packet**, as long as nobody connects while the
room has more than 524 objects, and ids have not wrapped around: `MakeSendBuffer` makes a packet of
it whose header has the right size. -/
theorem packets_fit_of_run
    (h : Reaches (ServerStep P) (fun w ev => (∃ s, ev = .processConnect s) → Uncrowded w.room)
      (World.init tilemap) w)
    (hids : w.idGenerator ≤ 2 ^ 64) (hsent : .send s msg ∈ w.trace) :
    ∃ (hmsg : msg.Encodable) (b : SendBuffer),
      makeSendBuffer (serverProtobuf msg.pktId) ⟨msg, hmsg, rfl⟩ msg.pktId = .ok b ∧
      IsPacket b.sent := by
  have hw : Fitting w := upheld_fitting.serverRun (fun _ s hfit => hfit ⟨s, rfl⟩)
    (fun _ _ _ _ => trivial) h (registry_init tilemap) (fitting_init tilemap)
  have hmsg := hw.sendable hids s msg hsent
  obtain ⟨b, hb, hbytes⟩ := makeSendBuffer_serverPacket hmsg
  exact ⟨hmsg.encodable, b, hb, hbytes ▸ serverWire.isPacket ⟨msg, hmsg⟩⟩

theorem packets_fit_of_run_afterConnect : ∃ b, makeSendBuffer (serverProtobuf 5)
    ⟨.sAddObject [firstMonster.info],
      List.forall_mem_singleton.2 ⟨by decide, by decide⟩, rfl⟩ 5 = .ok b ∧ IsPacket b.sent := by
  have hrun : Reaches (ServerStep (.always .accepted))
      (fun w ev => (∃ s, ev = .processConnect s) → Uncrowded w.room) (World.init {})
      (afterConnect .accepted) :=
    .single (e := .processConnect 0) (fun _ => by decide) (.processConnect rfl rfl)
  have hsent : .send 0 (.sAddObject [firstMonster.info]) ∈ (afterConnect .accepted).trace := by
    decide
  obtain ⟨_, b, hb, hpacket⟩ := packets_fit_of_run hrun (by decide) hsent
  exact ⟨b, hb, hpacket⟩

end Zelda
