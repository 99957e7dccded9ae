import Zelda.Client.Animation
import Zelda.Replication
import Zelda.Server.Ghosts

/-!
# Directions on their way from one client to another

The direction of a `C_Move` is stored as it comes, sent on in the `S_Move` that follows and in every
`S_AddObject` later on, and read as an index by the clients that receive it. Monsters look in one of
the four directions when they act, and players enter looking up, so the server has and sends
directions in range (`World.Directed`) as long as the packets it handles name them.

* `Edit.directed`: no edit brings in another direction.
* `Moved.directed_iff`: a packet keeps the directions in range exactly when its own is.
* `directions_of_run`: the runs, with what their clients read.
-/

namespace Zelda.Server

open Protocol Std Client

variable {P : Platform} {w w' : World} {s : SessionId} {ref : ObjectRef} {info : ObjectInfo}
  {pkt : CMove} {msg : ServerPacket} {evs : List Event} {tilemap : Tilemap}

/-- Every object of the room has one of the four directions, and so has every info that was sent. -/
structure World.Directed (w : World) : Prop where
  infos : ∀ {ref info}, w.room.info? ref = some info → IsDir info.dir
  sends : ∀ {s msg}, .send s msg ∈ w.trace → DirectedPacket msg

namespace World.Directed

theorem of_still (h : w.Directed) (hq : Still w w' evs)
    (hevs : ∀ s msg, .send s msg ∈ evs → DirectedPacket msg) : w'.Directed where
  infos hi := h.infos (hq.room ▸ hi)
  sends {s msg} hmem := by
    rw [hq.trace, List.mem_append] at hmem
    exact hmem.elim h.sends (hevs s msg)

/-- An announcement is a message like any other. -/
theorem of_announce {r : GameRoom} (h : w.Directed) (hq : Quiet w w' (r.announce msg))
    (hmsg : DirectedPacket msg) : w'.Directed := by
  refine h.of_still hq.toStill fun s msg' hmem => ?_
  obtain ⟨_, -, heq⟩ := List.mem_map.1 hmem
  cases heq
  exact hmsg

theorem of_silent (h : w.Directed) (hq : Still w w' []) : w'.Directed :=
  h.of_still hq fun _ _ hmem => absurd hmem List.not_mem_nil

theorem log (h : w.Directed) {e : Event} (he : ∀ s msg, e ≠ .send s msg) : (w.log e).Directed := by
  refine h.of_still (Quiet.log w e).toStill fun s msg hmem => ?_
  exact absurd (List.mem_singleton.1 hmem).symm (he s msg)

theorem modifyInfo (h : w.Directed) {f : ObjectInfo → ObjectInfo}
    (hf : ∀ info, w.room.info? ref = some info → IsDir (f info).dir) :
    (w.modifyInfo ref f).Directed where
  infos {ref' info'} hi := by
    rw [World.info?_modifyInfo] at hi
    split at hi
    · obtain ⟨info, hinfo, rfl⟩ := Option.map_eq_some_iff.1 hi
      exact hf info hinfo
    · exact h.infos hi
  sends hmem := h.sends hmem

theorem modifyMonster (h : w.Directed) {id : ObjectId} {m : Monster} {f : Monster → Monster}
    (hm : w.room.monsters[id]? = some m) (hf : IsDir (f m).info.dir) :
    (w.modifyMonster id f).Directed where
  infos {ref' info'} hi := by
    rw [World.info?_modifyMonster_of_getElem? hm] at hi
    split at hi
    · obtain rfl := Option.some.inj hi
      exact hf
    · exact h.infos hi
  sends hmem := h.sends hmem

theorem erase (h : w.Directed) (ref : ObjectRef) : (w.erase ref).Directed where
  infos {ref' info'} hi := by
    rw [World.info?_erase] at hi
    split at hi
    · cases hi
    · exact h.infos hi
  sends hmem := h.sends hmem

end World.Directed

theorem directedPacket_sMove : DirectedPacket (.sMove info) ↔ IsDir info.dir := by
  simp [DirectedPacket, infosOf]

theorem directedPacket_sRemoveObject (ids : List ObjectId) : DirectedPacket (.sRemoveObject ids) :=
  fun _ hmem => absurd hmem List.not_mem_nil

/-! ## Steps -/

theorem Edit.directed (he : Edit w w') (h : w.Directed) : w'.Directed := by
  have hmonster : ∀ {id : ObjectId} {m : Monster}, w.room.monsters[id]? = some m →
      IsDir m.info.dir := by
    intro id m hm
    have hi : w.room.info? (.monster id) = some m.info := GameRoom.info?_of_monster hm
    exact h.infos hi
  cases he with
  | skill id => exact h.log fun _ _ heq => by cases heq
  | damage => exact h.log fun _ _ heq => by cases heq
  | @hurt _ _ _ a v _ hv _ hq =>
    have hdir : IsDir (v.setHp (hpAfter a v)).dir := show IsDir v.dir from h.infos hv
    refine (h.modifyInfo fun info hi => ?_).of_announce hq (directedPacket_sMove.2 hdir)
    show IsDir info.dir
    exact h.infos hi
  | erase _ hq => exact (h.erase _).of_announce hq (directedPacket_sRemoveObject _)
  | think hm _ hdir _ =>
    refine h.modifyMonster hm ?_
    rw [hdir]
    exact hmonster hm
  | act hm _ _ hq hdir => exact (h.modifyMonster hm hdir).of_announce hq (directedPacket_sMove.2 hdir)
  | announce hinfo hq => exact h.of_announce hq (directedPacket_sMove.2 (h.infos hinfo))

theorem Edits.directed (he : Edits w w') (h : w.Directed) : w'.Directed := by
  induction he with
  | refl => exact h
  | tail _ he ih => exact he.directed ih

/-- **A packet keeps the directions in range exactly when its own is**, if it names an object. -/
theorem Moved.directed_iff (hm : Moved pkt w w') (hr : Registry w) (h : w.Directed) :
    w'.Directed ↔ ∀ ref, w.room.findObject pkt.info.objectid = some ref → IsDir pkt.info.dir := by
  cases hm with
  | absent hfind =>
    refine ⟨fun _ ref hsome => ?_, fun _ => h⟩
    cases hfind.symm.trans hsome
  | @moved ref prev w₁ _ hfind hprev hattack _ hq =>
    constructor
    · intro h' _ _
      -- the object has the direction of the packet in the end
      have hnow : w'.room.info? ref = some (moveInfo pkt prev) := by
        rw [hq.room, hattack.info?_self hr.moveInfo, World.info?_modifyInfo_of_info? hprev,
          if_pos rfl]
      rw [← moveInfo_dir pkt prev]
      exact h'.infos hnow
    · intro hall
      have hdir : ∀ info, IsDir (moveInfo pkt info).dir := by
        intro info
        rw [moveInfo_dir]
        exact hall ref hfind
      have h₁ : w₁.Directed := hattack.edits.directed (h.modifyInfo fun info _ => hdir info)
      have hsaid : IsDir ((w₁.room.info? ref).getD (moveInfo pkt prev)).dir := by
        cases hsome : w₁.room.info? ref with
        | none =>
          rw [Option.getD_none]
          exact hdir prev
        | some info =>
          rw [Option.getD_some]
          exact h₁.infos hsome
      exact h₁.of_announce hq (directedPacket_sMove.2 hsaid)

theorem Entered.directed (he : Entered s w w') (h : w.Directed) : w'.Directed := by
  have hup : IsDir (enteringPlayer w.idGenerator s).info.dir := by
    show IsDir dirUp
    decide
  have hnew : ∀ objects, (∀ info ∈ objects, IsDir info.dir) →
      DirectedPacket (.sAddObject objects) := fun _ hall => hall
  obtain ⟨hsends, hadd⟩ := he
  rename_i mid
  have hlink : (w.link s).Directed := ⟨fun hi => h.infos hi, fun hmem => h.sends hmem⟩
  have hmid := hlink.of_still hsends.toStill fun t msg hmem => by
    simp only [List.mem_cons, List.not_mem_nil, or_false, Event.send.injEq] at hmem
    rcases hmem with ⟨-, rfl⟩ | ⟨-, rfl⟩
    · intro info hinfo
      obtain rfl := List.mem_singleton.1 hinfo
      exact hup
    · refine hnew _ fun info hinfo => ?_
      obtain ⟨ref, hi⟩ := GameRoom.mem_infos.1 hinfo
      exact h.infos hi
  have hadded : (mid.setRoom (mid.room.addPlayer (enteringPlayer w.idGenerator s))).Directed := by
    refine ⟨fun {ref info} hi => ?_, fun hmem => hmid.sends hmem⟩
    rw [World.room_setRoom, GameRoom.info?_addPlayer] at hi
    split at hi
    · obtain rfl := Option.some.inj hi
      exact hup
    · exact hmid.infos hi
  refine hadded.of_announce hadd (hnew _ fun info hinfo => ?_)
  obtain rfl := List.mem_singleton.1 hinfo
  exact hup

theorem Connected.directed (hc : Connected s w w') (h : w.Directed) : w'.Directed := by
  obtain ⟨hsend, henter⟩ := hc
  refine henter.directed (World.Directed.of_still ?_ hsend.toStill fun t msg hmem => ?_)
  · exact ⟨fun hi => h.infos hi, fun hmem => h.sends hmem⟩
  · obtain ⟨-, rfl⟩ := Event.send.inj (List.mem_singleton.1 hmem)
    exact fun _ hmem => absurd hmem List.not_mem_nil

theorem Ran.directed (hran : Ran w w') (h : w.Directed) : w'.Directed := by
  obtain ⟨w₁, w₂, hbefore, hedits, hafter⟩ := hran
  exact (hedits.directed (h.of_silent hbefore)).of_silent hafter

/-! ## Runs -/

/-- What a handled packet would have to name. -/
def Aimed (w : World) : ServerEvent → Prop
  | .receiveCMove s pkt => (w.sessions s).gameRoom = true →
      ∀ ref, w.room.findObject pkt.info.objectid = some ref → IsDir pkt.info.dir
  | _ => True

theorem ServerStep.directed_iff {ev : ServerEvent} (hs : ServerStep P w ev w') (hr : Registry w)
    (h : w.Directed) : w'.Directed ↔ Aimed w ev := by
  cases hs with
  | processConnect hnew hok =>
    have hp : (w.sessions _).player = none := congrArg GameSession.player hnew
    exact iff_of_true ((processConnect_ok hr hp hok).directed h) trivial
  | disconnect hok => exact iff_of_true ((disconnect_ok hr.toLinked hok).ran.directed h) trivial
  | receiveCMove hok =>
    rcases receiveCMove_cases hok with ⟨hroom, hhandle⟩ | ⟨hroom, rfl⟩
    · rw [(handleCMove_ok hr hhandle).directed_iff hr h]
      exact ⟨fun hall _ => hall, fun hall => hall hroom⟩
    · exact iff_of_true h fun htrue => absurd htrue hroom
  | processSend hok => exact iff_of_true ((processSend_ok hr hok).ran.directed h) trivial
  | update hok => exact iff_of_true ((update_edits hr hok).directed h) trivial

theorem directed_init (tilemap : Tilemap) : (World.init tilemap).Directed where
  infos hi := by
    obtain ⟨-, rfl⟩ := info?_init hi
    decide
  sends hmem := absurd hmem List.not_mem_nil

/-- What the client of a session does: it handles a message that was sent to it, or one of its
objects ticks. -/
def Handled (w : World) (s : SessionId) : SceneManager.ClientEvent → Prop
  | .packet msg => .send s msg ∈ w.trace
  | .setState _ _ => True
  | .setDir _ dir => IsDir dir

/-- **In every run in which the packets that are handled name one of the four directions, so does
everything the server sends, and no client reads a flipbook out of bounds**; a packet that names an
object and another direction puts that direction into the room. -/
theorem directions_of_run (h : Reaches (ServerStep P) Aimed (World.init tilemap) w) :
    (∀ s msg, .send s msg ∈ w.trace → DirectedPacket msg) ∧
    (∀ s es, (∀ e ∈ es, Handled w s e) →
      ∀ a ∈ ({} : SceneManager).runReads es, IsDir a.2) ∧
    ∀ ev w', ServerStep P w ev w' → (w'.Directed ↔ Aimed w ev) := by
  have hall : Registry w ∧ w.Directed := by
    refine h.invariant (I := fun w => Registry w ∧ w.Directed) ?_
      ⟨registry_init tilemap, directed_init tilemap⟩
    rintro w₁ ev w₂ ⟨hr, hdir⟩ hC hs
    exact ⟨hs.registry hr, (hs.directed_iff hr hdir).2 hC⟩
  obtain ⟨hr, hdir⟩ := hall
  refine ⟨fun s msg hmem => hdir.sends hmem, fun s es hes => ?_, fun ev w' hs =>
    hs.directed_iff hr hdir⟩
  refine SceneManager.directed_init.isDir_runReads fun e he => ?_
  have hhandled := hes e he
  cases e with
  | packet msg => exact hdir.sends hhandled
  | setState => trivial
  | setDir => exact hhandled

/-! ## A direction out of range -/

/-- The first player, with a direction that there is none of. -/
def turnNowhere : CMove := ⟨(enteringPlayer 2 0).info.setDir 4⟩

/-- The server after sessions 0 and 1 have connected. -/
def afterBoth : World :=
  Result.world (processConnect (.always .accepted) 1 (afterConnect .accepted))

/-- The server after session 0 has sent a packet too. -/
def afterTurn (pkt : CMove) : World :=
  Result.world (receiveCMove (.always .accepted) 0 pkt afterBoth)

theorem serverStep_afterConnect : ServerStep (.always .accepted) (World.init {})
    (.processConnect 0) (afterConnect .accepted) := .processConnect rfl rfl

theorem serverStep_afterBoth : ServerStep (.always .accepted) (afterConnect .accepted)
    (.processConnect 1) afterBoth := .processConnect rfl rfl

theorem serverStep_turnNowhere : ServerStep (.always .accepted) afterBoth
    (.receiveCMove 0 turnNowhere) (afterTurn turnNowhere) := .receiveCMove rfl

/-- The client of session 1 is sent the direction and reads an array of four flipbooks at it. -/
theorem not_directed_turnNowhere :
    ServerReachable (.always .accepted) {} (afterTurn turnNowhere) ∧
      .send 1 (.sMove turnNowhere.info) ∈ (afterTurn turnNowhere).trace ∧
      ¬ DirectedPacket (.sMove turnNowhere.info) ∧
      ∃ a ∈ ({} : SceneManager).runReads ((sentTo 1 (afterTurn turnNowhere).trace).map .packet),
        ¬ IsDir a.2 := by
  refine ⟨?_, by decide, ?_, (.idle, 4), by decide, by decide⟩
  · have hboth : ServerReachable (.always .accepted) {} afterBoth :=
      .tail (.single trivial serverStep_afterConnect) trivial serverStep_afterBoth
    exact .tail hboth trivial serverStep_turnNowhere
  · rw [directedPacket_sMove]
    decide

/-- The first player, turned to the left. -/
def turnLeft : CMove := ⟨(enteringPlayer 2 0).info.setDir dirLeft⟩

theorem directions_turnLeft : ¬ ∃ a ∈ ({} : SceneManager).runReads
    ((sentTo 1 (afterTurn turnLeft).trace).map .packet), ¬ IsDir a.2 := by
  have hstep : ServerStep (.always .accepted) afterBoth (.receiveCMove 0 turnLeft)
      (afterTurn turnLeft) := .receiveCMove rfl
  have haimed : Aimed afterBoth (.receiveCMove 0 turnLeft) := fun _ _ _ => by decide
  have hrun : Reaches (ServerStep (.always .accepted)) Aimed (World.init {}) (afterTurn turnLeft) :=
    .tail (.tail (.single (e := .processConnect 0) trivial serverStep_afterConnect)
      (e := .processConnect 1) trivial serverStep_afterBoth) haimed hstep
  rintro ⟨a, ha, hnot⟩
  refine hnot ((directions_of_run hrun).2.1 1 _ (fun e he => ?_) a ha)
  obtain ⟨msg, hmsg, rfl⟩ := List.mem_map.1 he
  exact mem_sentTo hmsg

end Zelda.Server
