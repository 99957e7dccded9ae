import Zelda.Foundations.Runs
import Zelda.Server.MonsterEdits

/-!
# Runs of the room and of the server

Two transition systems on the state of the server. `RoomStep` is the room as its operations see it:
sessions enter and leave, packets are handled and the room is updated, in any order. `ServerStep` is
the server as its main loop sees it: connections, disconnections, received packets, completed sends
and updates. An operation that runs into an erased entry, or a search that does not end, gives no
next state.

Both keep the registry (`registry_of_roomRun`, `registry_of_serverRun`).
-/

namespace Zelda.Server

open Protocol Std

variable {P : Platform} {w w' : World} {s : SessionId}

/-! ## The room -/

/-- What can happen to the room. -/
inductive RoomEvent
  | enterRoom (s : SessionId)
  | leaveRoom (s : SessionId)
  | handleCMove (pkt : CMove)
  | update (clock : ObjectId → UInt64)

/-- The steps of the room. A session enters once. -/
inductive RoomStep (P : Platform) : World → RoomEvent → World → Prop
  | enterRoom {w w' : World} {s : SessionId} (hnew : (w.sessions s).player = none)
      (hok : enterRoom P s w = .ok w') : RoomStep P w (.enterRoom s) w'
  | leaveRoom {w w' : World} {s : SessionId} (hok : leaveRoom P s w = .ok w') :
      RoomStep P w (.leaveRoom s) w'
  | handleCMove {w w' : World} {pkt : CMove} (hok : handleCMove P pkt w = .ok w') :
      RoomStep P w (.handleCMove pkt) w'
  | update {w w' : World} {clock : ObjectId → UInt64} {fuel : ℕ}
      (hok : update P fuel clock w = .ok w') : RoomStep P w (.update clock) w'

/-- The states of the room that can be reached from `Init` with the given tilemap. -/
abbrev RoomReachable (P : Platform) (tilemap : Tilemap) : World → Prop :=
  Reaches (RoomStep P) (fun _ _ => True) (World.init tilemap)

/-! ## The server -/

/-- What can happen to the server. -/
inductive ServerEvent
  | processConnect (s : SessionId)
  | disconnect (s : SessionId)
  | receiveCMove (s : SessionId) (pkt : CMove)
  | processSend (s : SessionId) (numOfBytes : ℕ)
  | update (clock : ObjectId → UInt64)

/-- The steps of the server. Every connection gets a new session. -/
inductive ServerStep (P : Platform) : World → ServerEvent → World → Prop
  | processConnect {w w' : World} {s : SessionId} (hnew : w.sessions s = {})
      (hok : processConnect P s w = .ok w') : ServerStep P w (.processConnect s) w'
  | disconnect {w w' : World} {s : SessionId} (hok : disconnect P s w = .ok w') :
      ServerStep P w (.disconnect s) w'
  | receiveCMove {w w' : World} {s : SessionId} {pkt : CMove}
      (hok : receiveCMove P s pkt w = .ok w') : ServerStep P w (.receiveCMove s pkt) w'
  | processSend {w w' : World} {s : SessionId} {numOfBytes : ℕ}
      (hok : processSend P s numOfBytes w = .ok w') : ServerStep P w (.processSend s numOfBytes) w'
  | update {w w' : World} {clock : ObjectId → UInt64} {fuel : ℕ}
      (hok : update P fuel clock w = .ok w') : ServerStep P w (.update clock) w'

/-- The states of the server that can be reached from `Init` with the given tilemap. -/
abbrev ServerReachable (P : Platform) (tilemap : Tilemap) : World → Prop :=
  Reaches (ServerStep P) (fun _ _ => True) (World.init tilemap)

/-! ## What the steps of the server do -/

/-- What `ProcessConnect` has done when it returns. -/
inductive Connected (s : SessionId) (w w' : World) : Prop
  | intro {mid : World}
      (hsend : QuietBut s (w.setSession s { w.sessions s with connected := true }) mid
        [.send s (.sEnterGame true 0)])
      (henter : Entered s mid w') : Connected s w w'

theorem still_setConnected (w : World) (s : SessionId) (connected : Bool) :
    Still w (w.setSession s { w.sessions s with connected := connected }) [] := by
  have hfield : ∀ {α : Type} (f : GameSession → α),
      f { w.sessions s with connected := connected } = f (w.sessions s) → ∀ t,
      f ((w.setSession s { w.sessions s with connected := connected }).sessions t) =
        f (w.sessions t) := by
    intro α f hf t
    rcases eq_or_ne t s with rfl | hne
    · rw [World.sessions_setSession_self, hf]
    · rw [World.sessions_setSession_of_ne hne]
  exact ⟨rfl, rfl, (List.append_nil _).symm, hfield GameSession.player rfl,
    hfield GameSession.gameRoom rfl⟩

theorem Registry.setConnected (h : Registry w) (s : SessionId) (connected : Bool) :
    Registry (w.setSession s { w.sessions s with connected := connected }) :=
  h.of_still (still_setConnected w s connected)

theorem processConnect_ok (h : Registry w) (hs : (w.sessions s).player = none)
    (hok : processConnect P s w = .ok w') : Connected s w w' := by
  obtain ⟨mid, hsend, henter⟩ := bind_eq_ok.1 hok
  have hr := h.setConnected s true
  have hp : ((w.setSession s { w.sessions s with connected := true }).sessions s).player = none := by
    rw [World.sessions_setSession_self]
    exact hs
  have habsent : Absent (w.setSession s { w.sessions s with connected := true }) s := by
    intro id hid
    cases hp.symm.trans hid
  have hq := send_absent hr.toLinked habsent hsend
  exact .intro hq (enterRoom_ok (hr.of_still hq.toStill) ((hq.player s).trans hp) henter)

theorem Connected.registry (hc : Connected s w w') (h : Registry w)
    (hs : (w.sessions s).player = none) : Registry w' := by
  obtain ⟨hsend, henter⟩ := hc
  refine henter.registry ((h.setConnected s true).of_still hsend.toStill) ?_
  rw [hsend.player, World.sessions_setSession_self]
  exact hs

/-- What `ProcessSend` has done when it returns. -/
inductive Sent (s : SessionId) (w w' : World) : Prop
  | quiet (hquiet : Quiet w w' [])
  | disconnected {w₁ w₂ : World} (hquiet : Quiet w w₁ []) (hdis : Disconnected s w₁ w₂)
      (hclear : Quiet w₂ w' [])

theorem registerSend_ok (h : Registry w)
    (hok : Reentrant.registerSend P (disconnect P) s w = .ok w') : Sent s w w' := by
  by_cases hres : (w.sessions s).connected = true ∧
      (P.wsaSend s (w.sessions s).wsaSends).resets = true
  · obtain ⟨w₁, hq, -, hreg⟩ := registerSend_of_resets (D := disconnect P) hres.1 hres.2
    obtain ⟨w₂, hdis, hclear⟩ := bind_eq_ok.1 (hreg.symm.trans hok)
    obtain rfl := Except.ok.inj hclear
    exact .disconnected hq (disconnect_ok (h.of_quiet hq).toLinked hdis) (.clear w₂ s)
  · have hnot : (w.sessions s).connected = true →
        (P.wsaSend s (w.sessions s).wsaSends).resets = false :=
      fun hc => eq_false_of_ne_true fun hr => hres ⟨hc, hr⟩
    obtain ⟨w₁, hw₁, hq, -⟩ := registerSend_of_not_resets (D := disconnect P) hnot
    obtain rfl := Except.ok.inj (hw₁.symm.trans hok)
    exact .quiet hq

theorem processSend_ok (h : Registry w) {numOfBytes : ℕ}
    (hok : processSend P s numOfBytes w = .ok w') : Sent s w w' := by
  unfold processSend at hok
  set g := { w.sessions s with sendEvent := [] } with hg
  have hq : Quiet w (w.setSession s g) [] := .setSession g rfl rfl rfl
  simp only at hok
  split at hok
  · exact .disconnected hq (disconnect_ok (h.of_quiet hq).toLinked hok) (.refl w')
  · split at hok
    · cases hok
      exact .quiet (.setSession { g with sendRegistered := false } rfl rfl rfl)
    · cases registerSend_ok (h.of_quiet hq) hok with
      | quiet hq' => exact .quiet (hq.trans hq')
      | disconnected hq' hdis hclear => exact .disconnected (hq.trans hq') hdis hclear

theorem receiveCMove_ok (h : Registry w) {pkt : CMove} (hok : receiveCMove P s pkt w = .ok w') :
    w' = w ∨ Moved pkt w w' := by
  rcases receiveCMove_cases hok with ⟨-, hhandle⟩ | ⟨-, rfl⟩
  · exact .inr (handleCMove_ok h hhandle)
  · exact .inl rfl

/-- Edits, with changes of sessions before and after that no other session sees. -/
structure Ran (w w' : World) : Prop where
  edits : ∃ w₁ w₂, Still w w₁ [] ∧ Edits w₁ w₂ ∧ Still w₂ w' []

theorem Still.refl (w : World) : Still w w [] := ⟨rfl, rfl, (List.append_nil _).symm, fun _ => rfl,
  fun _ => rfl⟩

theorem Edits.ran (he : Edits w w') : Ran w w' := ⟨w, w', .refl w, he, .refl w'⟩

theorem Disconnected.ran (hd : Disconnected s w w') : Ran w w' := by
  cases hd with
  | already => exact Edits.ran .refl
  | left _ hleft => exact ⟨_, _, still_setConnected w s false, hleft.edits, .refl w'⟩

theorem Sent.ran (hs : Sent s w w') : Ran w w' := by
  cases hs with
  | quiet hq => exact ⟨_, _, hq.toStill, .refl, .refl w'⟩
  | disconnected hq hdis hclear =>
    obtain ⟨w₁, w₂, hbefore, hedits, hafter⟩ := hdis.ran
    exact ⟨w₁, w₂, hq.toStill.trans hbefore, hedits, hafter.trans hclear.toStill⟩

/-- A step of the server is edits, a connection or a packet. -/
theorem ServerStep.change {ev : ServerEvent} (hs : ServerStep P w ev w') (h : Registry w) :
    Ran w w' ∨
      (∃ s, ev = .processConnect s ∧ (w.sessions s).player = none ∧ Connected s w w') ∨
      ∃ s pkt, ev = .receiveCMove s pkt ∧ (w' = w ∨ Moved pkt w w') := by
  cases hs with
  | processConnect hnew hok =>
    have hp : (w.sessions _).player = none := congrArg GameSession.player hnew
    exact .inr (.inl ⟨_, rfl, hp, processConnect_ok h hp hok⟩)
  | disconnect hok => exact .inl (disconnect_ok h.toLinked hok).ran
  | receiveCMove hok => exact .inr (.inr ⟨_, _, rfl, receiveCMove_ok h hok⟩)
  | processSend hok => exact .inl (processSend_ok h hok).ran
  | update hok => exact .inl (update_edits h hok).ran

/-! ## The registry in every run -/

theorem info?_init {tilemap : Tilemap} {ref : ObjectRef} {info : ObjectInfo}
    (hi : (World.init tilemap).room.info? ref = some info) :
    ref = .monster 1 ∧ info = firstMonster.info := by
  cases ref with
  | player id =>
    have hplayers : (World.init tilemap).room.players = ∅ := rfl
    rw [GameRoom.info?_player, hplayers] at hi
    simp at hi
  | monster id =>
    have hget : (World.init tilemap).room.monsters[id]? =
        if id = 1 then some { firstMonster with room := true } else none := by
      simp only [World.init, GameRoom.addMonster, ExtTreeMap.getElem?_insert,
        LawfulEqCmp.compare_eq_iff_eq, ExtTreeMap.getElem?_empty]
      exact if_congr eq_comm rfl rfl
    rw [GameRoom.info?_monster, hget] at hi
    split at hi
    · rename_i hid
      obtain rfl := Option.some.inj hi
      exact ⟨congrArg ObjectRef.monster hid, rfl⟩
    · cases hi

theorem registry_init (tilemap : Tilemap) : Registry (World.init tilemap) := by
  have hplayers : (World.init tilemap).room.players = ∅ := rfl
  have hnone : ∀ {s id}, ((World.init tilemap).sessions s).player ≠ some id := fun hp => by cases hp
  refine { player_of_session := ?_, objecttype := ?_, not_monster := fun hp => absurd hp hnone,
           objectid := ?_, disjoint := ?_, lt_idGenerator := ?_,
           player_lt := fun hp => absurd hp hnone }
  · intro id s hs
    rw [GameRoom.session?, hplayers] at hs
    simp at hs
  · intro ref info hi
    obtain ⟨rfl, rfl⟩ := info?_init hi
    rfl
  · intro ref info hi
    obtain ⟨rfl, rfl⟩ := info?_init hi
    rfl
  · intro id hp
    rw [hplayers] at hp
    exact absurd hp ExtTreeMap.not_mem_empty
  · intro ref hreg
    obtain ⟨info, hi⟩ := Option.isSome_iff_exists.1 hreg
    obtain ⟨rfl, -⟩ := info?_init hi
    exact Nat.one_lt_two

/-- A step of the room is edits, a move or an entry. -/
theorem RoomStep.change {ev : RoomEvent} (hs : RoomStep P w ev w') (h : Registry w) :
    Edits w w' ∨ (∃ pkt, Moved pkt w w') ∨
      ∃ s, (w.sessions s).player = none ∧ Entered s w w' := by
  cases hs with
  | enterRoom hnew hok => exact .inr (.inr ⟨_, hnew, enterRoom_ok h hnew hok⟩)
  | leaveRoom hok => exact .inl (leaveRoom_edits h hok)
  | handleCMove hok => exact .inr (.inl ⟨_, handleCMove_ok h hok⟩)
  | update hok => exact .inl (update_edits h hok)

theorem RoomStep.registry {ev : RoomEvent} (hs : RoomStep P w ev w') (h : Registry w) :
    Registry w' := by
  rcases hs.change h with he | ⟨_, hm⟩ | ⟨_, hnew, he⟩
  · exact he.registry h
  · exact hm.registry h
  · exact he.registry h hnew

theorem Ran.registry (hran : Ran w w') (h : Registry w) : Registry w' := by
  obtain ⟨w₁, w₂, hbefore, hedits, hafter⟩ := hran
  exact (hedits.registry (h.of_still hbefore)).of_still hafter

theorem ServerStep.registry {ev : ServerEvent} (hs : ServerStep P w ev w') (h : Registry w) :
    Registry w' := by
  rcases hs.change h with hran | ⟨s, -, hnew, hc⟩ | ⟨s, pkt, -, rfl | hm⟩
  · exact hran.registry h
  · exact hc.registry h hnew
  · exact h
  · exact hm.registry h

/-! ## The counter of ids -/

theorem Ran.idGenerator (hran : Ran w w') : w'.idGenerator = w.idGenerator := by
  obtain ⟨w₁, w₂, hbefore, hedits, hafter⟩ := hran
  rw [hafter.idGenerator, hedits.idGenerator, hbefore.idGenerator]

theorem Connected.idGenerator (hc : Connected s w w') : w'.idGenerator = w.idGenerator + 1 := by
  obtain ⟨hsend, henter⟩ := hc
  rw [henter.idGenerator, hsend.idGenerator]
  rfl

/-- Ids are handed out in order. -/
theorem ServerStep.idGenerator_le {ev : ServerEvent} (hs : ServerStep P w ev w') (h : Registry w) :
    w.idGenerator ≤ w'.idGenerator := by
  rcases hs.change h with hran | ⟨s, -, -, hc⟩ | ⟨s, pkt, -, rfl | hm⟩
  · exact hran.idGenerator.ge
  · rw [hc.idGenerator]
    exact Nat.le_succ _
  · exact le_rfl
  · exact hm.idGenerator.ge

/-! ## Every run -/

theorem registry_of_roomRun {C : World → RoomEvent → Prop} (h : Reaches (RoomStep P) C w w')
    (hw : Registry w) : Registry w' :=
  h.invariant (fun _ _ _ hr _ hs => hs.registry hr) hw

theorem registry_of_serverRun {C : World → ServerEvent → Prop} (h : Reaches (ServerStep P) C w w')
    (hw : Registry w) : Registry w' :=
  h.invariant (fun _ _ _ hr _ hs => hs.registry hr) hw

/-! ## A first player -/

/-- A network on which every `WSASend` has the given outcome. -/
def Platform.always (outcome : SocketResult) : Platform where
  wsaSend _ _ := outcome
  pq := PriorityQueue.selection PQNode.cost

/-- The state an operation leads to, and the empty one if there is none. -/
def Result.world (result : Result) : World :=
  match result with
  | .ok w => w
  | .error _ => {}

/-- The room after session 0 has entered it, with every send accepted. -/
def afterEnter (tilemap : Tilemap) : World :=
  Result.world (enterRoom (.always .accepted) 0 (World.init tilemap))

theorem roomStep_afterEnter (tilemap : Tilemap) :
    RoomStep (.always .accepted) (World.init tilemap) (.enterRoom 0) (afterEnter tilemap) :=
  .enterRoom rfl rfl

theorem registry_afterEnter (tilemap : Tilemap) : Registry (afterEnter tilemap) :=
  (roomStep_afterEnter tilemap).registry (registry_init tilemap)

/-! ## Runs that can be computed -/

theorem toOption_eq_some {result : Result} (h : result.toOption = some w) : result = .ok w := by
  cases result with
  | error => cases h
  | ok w' => exact congrArg Except.ok (Option.some.inj h)

/-- The state after an event of the room, if it is possible, with every send accepted. -/
def RoomEvent.next? (w : World) : RoomEvent → Option World
  | .enterRoom s =>
    if (w.sessions s).player = none then (Server.enterRoom (.always .accepted) s w).toOption
    else none
  | .leaveRoom s => (Server.leaveRoom (.always .accepted) s w).toOption
  | .handleCMove pkt => (Server.handleCMove (.always .accepted) pkt w).toOption
  | .update clock => (Server.update (.always .accepted) 186 clock w).toOption

/-- The state after an event of the room. -/
def RoomEvent.act (w : World) (ev : RoomEvent) : World := (ev.next? w).getD w

theorem roomStep_act {ev : RoomEvent} (h : (ev.next? w).isSome = true) :
    RoomStep (.always .accepted) w ev (ev.act w) := by
  obtain ⟨w', hw'⟩ := Option.isSome_iff_exists.1 h
  rw [RoomEvent.act, hw', Option.getD_some]
  cases ev with
  | enterRoom s =>
    rw [RoomEvent.next?] at hw'
    split at hw'
    · rename_i hnew
      exact .enterRoom hnew (toOption_eq_some hw')
    · cases hw'
  | leaveRoom s => exact .leaveRoom (toOption_eq_some hw')
  | handleCMove pkt => exact .handleCMove (toOption_eq_some hw')
  | update clock => exact .update (toOption_eq_some hw')

theorem roomRun_acts {evs : List RoomEvent}
    (h : Reaches.follows (fun w ev => (ev.next? w).isSome) RoomEvent.act w evs = true) :
    Reaches (RoomStep (.always .accepted)) (fun _ _ => True) w (evs.foldl RoomEvent.act w) :=
  .of_follows (fun _ _ hpossible => ⟨trivial, roomStep_act hpossible⟩) h

/-- A move of the first player beside the first monster. -/
def besideMonster (state : Int32) : CMove :=
  ⟨((enteringPlayer 2 0).info.setCellPos ⟨8, 7⟩).setDir dirDown |>.setState state⟩

/-- A blow at the monster. -/
def blow : List RoomEvent :=
  [.handleCMove (besideMonster skill), .handleCMove (besideMonster idle)]

/-- Two sessions enter the room, and the first player strikes the monster three times. -/
def assault : List RoomEvent := [.enterRoom 0, .enterRoom 1] ++ blow ++ blow ++ blow

/-- The monster prepares to strike back, is struck down, and the first player leaves. -/
def victory : List RoomEvent := [.update fun _ => 0] ++ blow ++ [.leaveRoom 0]

/-- The server after the assault. -/
def assaulted : World := assault.foldl RoomEvent.act (World.init {})

theorem roomRun_assaulted : RoomReachable (.always .accepted) {} assaulted :=
  roomRun_acts (by decide +kernel)

/-- The server after the victory. -/
def won : World := victory.foldl RoomEvent.act assaulted

theorem roomRun_won : Reaches (RoomStep (.always .accepted)) (fun _ _ => True) assaulted won :=
  roomRun_acts (by decide +kernel)

end Zelda.Server
