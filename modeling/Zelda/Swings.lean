import Zelda.Client.Mirror
import Zelda.Client.MyPlayer
import Zelda.Foundations.Relay
import Zelda.Server.Ghosts
import Zelda.Server.Removal

/-!
# Swings of a player and what the server makes of them

One client with its own player, the packets it has sent that are still under way, and the server.
The client ticks with any input, handles any `S_Move` for its player and may be hit by its own
copies of the others; the server handles the packets in order and does whatever else it does, short
of handling somebody else's packet about this player.

A swing is a tick that ends in `SKILL` and began in another state. The state of the player is
relayed to the server (`Zelda.Relay`), tick by tick and packet by packet, and the swings are the
edges that both sides look for, so the server calls `ProcessSkill` once for each (`swings_of_run`).
-/

namespace Zelda.Server

open Protocol Std

variable {P : Platform} {w w' : World} {s t : SessionId} {id : ObjectId} {tilemap : Tilemap}

/-! ## The state that the server has stored -/

/-- The state of a player in the room. -/
def World.playerState (w : World) (id : ObjectId) : Option Int32 :=
  (w.room.info? (.player id)).map (·.state)

theorem Still.playerState {evs : List Event} (hq : Still w w' evs) :
    w'.playerState id = w.playerState id := by
  rw [World.playerState, hq.room, World.playerState]

/-- No edit changes the state of a player that stays. -/
theorem Edit.playerState (he : Edit w w') (hstay : id ∈ w'.room.players) :
    w'.playerState id = w.playerState id := by
  cases he with
  | skill | damage => rfl
  | @hurt _ _ victim a v _ hv _ hq =>
    rw [hq.playerState, World.playerState, World.info?_modifyInfo, World.playerState]
    split
    · rename_i hvictim
      rw [hvictim, hv]
      rfl
    · rfl
  | erase _ hq =>
    rw [hq.room, ← GameRoom.registered_player, World.room_erase, GameRoom.registered_erase] at hstay
    rw [hq.playerState, World.playerState, World.info?_erase, if_neg hstay.1, World.playerState]
  | think hm =>
    rw [World.playerState, World.info?_modifyMonster, if_neg ObjectRef.noConfusion,
      World.playerState]
  | act _ _ _ hq =>
    rw [hq.playerState, World.playerState, World.info?_modifyMonster, if_neg ObjectRef.noConfusion,
      World.playerState]
  | announce _ hq => exact hq.playerState

theorem Edits.playerState (he : Edits w w') (hstay : id ∈ w'.room.players) :
    w'.playerState id = w.playerState id := by
  induction he with
  | refl => rfl
  | tail _ hlast ih =>
    rw [hlast.playerState hstay]
    exact ih (Edits.mem_players (.single hlast) hstay)

/-- The packet, if the event handles one, names the object. -/
def Names (id : ObjectId) : ServerEvent → Prop
  | .receiveCMove _ pkt => pkt.info.objectid = id
  | _ => False

theorem Moved.playerState_of_ne {pkt : CMove} (hm : Moved pkt w w') (hne : pkt.info.objectid ≠ id)
    (hstay : id ∈ w'.room.players) : w'.playerState id = w.playerState id := by
  cases hm with
  | absent => rfl
  | moved hfind _ hattack _ hq =>
    obtain ⟨hid, -⟩ := GameRoom.findObject_eq_some hfind
    rw [hq.room] at hstay
    rw [hq.playerState, hattack.edits.playerState hstay, World.playerState, World.info?_modifyInfo,
      if_neg, World.playerState]
    rintro rfl
    exact hne hid.symm

theorem Moved.playerState_self {pkt : CMove} {prev : ObjectInfo} (hm : Moved pkt w w')
    (h : Registry w) (hprev : w.room.info? (.player id) = some prev)
    (hid : pkt.info.objectid = id) : w'.playerState id = some pkt.info.state := by
  have hself : w.room.findObject pkt.info.objectid = some (.player id) := by
    rw [hid]
    exact h.findObject (GameRoom.registered_of_info? hprev)
  cases hm with
  | absent hnone => cases hnone.symm.trans hself
  | moved hfind _ hattack _ hq =>
    obtain rfl := Option.some.inj (hself.symm.trans hfind)
    rw [hq.playerState, World.playerState, hattack.info?_self h.moveInfo,
      World.info?_modifyInfo_of_info? hprev, if_pos rfl, Option.map_some, moveInfo_state]

/-! ## Steps that do not name the player -/

theorem Connected.calls (hc : Connected s w w') : w'.calls id = w.calls id := by
  obtain ⟨hsend, henter⟩ := hc
  exact henter.calls.trans (World.calls_of_trace hsend.trace (by simp))

theorem Disconnected.calls (hd : Disconnected s w w') : w'.calls id = w.calls id := by
  cases hd with
  | already => rfl
  | left _ hleft => exact hleft.calls

theorem Quiet.calls_nil (hq : Quiet w w' []) : w'.calls id = w.calls id :=
  World.calls_of_trace hq.trace List.not_mem_nil

theorem Sent.calls (hs : Sent s w w') : w'.calls id = w.calls id := by
  cases hs with
  | quiet hq => exact hq.calls_nil
  | disconnected hq hdis hclear => exact hclear.calls_nil.trans (hdis.calls.trans hq.calls_nil)

/-- A player is called to attack only by a packet that names it. -/
theorem ServerStep.calls_of_not_names {ev : ServerEvent} (hs : ServerStep P w ev w')
    (h : Registry w) (hnot : ¬ Names id ev) : w'.calls id = w.calls id := by
  cases hs with
  | processConnect hnew hok =>
    exact (processConnect_ok h (congrArg GameSession.player hnew) hok).calls
  | disconnect hok => exact (disconnect_ok h.toLinked hok).calls
  | receiveCMove hok =>
    rcases receiveCMove_cases hok with ⟨-, hhandle⟩ | ⟨-, rfl⟩
    · exact handleCMove_calls_of_ne h hnot hhandle
    · rfl
  | processSend hok => exact (processSend_ok h hok).calls
  | update hok => exact update_calls h hok

/-- The state of a player that stays is changed only by a packet that names it. -/
theorem ServerStep.playerState_of_not_names {ev : ServerEvent} (hs : ServerStep P w ev w')
    (h : Registry w) (hnot : ¬ Names id ev) (hid : id ∈ w.room.players)
    (hstay : id ∈ w'.room.players) : w'.playerState id = w.playerState id := by
  rcases hs.change h with
    ⟨w₁, w₂, hbefore, hedits, hafter⟩ | ⟨s, -, -, hc⟩ | ⟨s, pkt, rfl, rfl | hm⟩
  · rw [hafter.room] at hstay
    rw [hafter.playerState, hedits.playerState hstay, hbefore.playerState]
  · have hlt := h.lt_idGenerator (GameRoom.registered_player.2 hid)
    rw [World.playerState, hc.room, GameRoom.info?_addPlayer, if_neg, World.playerState]
    intro heq
    exact hlt.ne (ObjectRef.player.inj heq)
  · rfl
  · exact hm.playerState_of_ne hnot hstay

/-- Nobody leaves the room again, as far as its session is concerned. -/
theorem ServerStep.gameRoom {ev : ServerEvent} (hs : ServerStep P w ev w') (h : Registry w)
    (hg : (w.sessions s).gameRoom = true) : (w'.sessions s).gameRoom = true := by
  rcases hs.change h with
    ⟨w₁, w₂, hbefore, hedits, hafter⟩ | ⟨t, -, -, hc⟩ | ⟨t, pkt, -, rfl | hm⟩
  · rw [hafter.gameRoom, hedits.sameSessions.gameRoom, hbefore.gameRoom]
    exact hg
  · rcases eq_or_ne s t with rfl | hne
    · exact hc.self.2
    · rw [(hc.of_ne hne).2.2]
      exact hg
  · exact hg
  · cases hm with
    | absent => exact hg
    | moved _ _ hattack _ hq =>
      rw [hq.gameRoom, hattack.edits.sameSessions.gameRoom]
      exact hg

/-- Who has a player has entered the room. -/
theorem entered_of_serverRun (h : ServerReachable P tilemap w)
    (hp : (w.sessions s).player = some id) : (w.sessions s).gameRoom = true := by
  have hall : Registry w ∧ ∀ s id, (w.sessions s).player = some id →
      (w.sessions s).gameRoom = true := by
    refine h.invariant (I := fun w => Registry w ∧ ∀ s id, (w.sessions s).player = some id →
      (w.sessions s).gameRoom = true) ?_ ⟨registry_init tilemap, fun _ _ hp => by cases hp⟩
    rintro w₁ ev w₂ ⟨hr, hentered⟩ - hs
    refine ⟨hs.registry hr, fun s id hp => ?_⟩
    by_cases hold : (w₁.sessions s).player = some id
    · exact hs.gameRoom hr (hentered s id hold)
    · -- only an entry gives a session a player
      rcases hs.change hr with
        ⟨w₃, w₄, hbefore, hedits, hafter⟩ | ⟨t, -, -, hc⟩ | ⟨t, pkt, -, rfl | hm⟩
      · rw [hafter.player, hedits.sameSessions.player, hbefore.player] at hp
        exact absurd hp hold
      · rcases eq_or_ne s t with rfl | hne
        · exact hc.self.2
        · rw [(hc.of_ne hne).2.1] at hp
          exact absurd hp hold
      · exact absurd hp hold
      · cases hm with
        | absent => exact absurd hp hold
        | moved _ _ hattack _ hq =>
          rw [hq.player, hattack.edits.sameSessions.player] at hp
          exact absurd hp hold
  exact hall.2 s id hp

/-! ## One client and the server -/

/-- The client's own player, the packets under way with whether their tick was a swing, the server,
and how many swings there were. -/
structure Arena where
  myPlayer : Client.GameObject
  flight : List (CMove × Bool) := []
  world : World
  swings : ℕ := 0

namespace Arena

variable {a a' : Arena}

/-- One tick of the client: the player ticks and may send a packet. -/
def tick (a : Arena) (frame : Client.Frame) : Arena :=
  let o := a.myPlayer.tick frame
  let swing := isSwing a.myPlayer.info.state o.info.state
  { a with
    myPlayer := o
    flight := a.flight ++ o.syncToServer.toList.map (·, swing)
    swings := a.swings + swing.toNat }

/-- What can happen. -/
inductive Event
  | tick (frame : Client.Frame)
  | sMove (info : ObjectInfo)
  | damaged (attacker : Client.GameObject)
  | deliver
  | server (ev : ServerEvent)

/-- The steps, as long as the player is in the room: the client ticks, handles an `S_Move` for its
player, or lets it be hit; the server handles the oldest packet under way, or does something
else. -/
inductive Step (P : Platform) (s : SessionId) (id : ObjectId) : Arena → Event → Arena → Prop
  | tick {a : Arena} {frame : Client.Frame} : Step P s id a (.tick frame) (a.tick frame)
  | sMove {a : Arena} {info : ObjectInfo} (hid : info.objectid = id) : Step P s id a (.sMove info)
      { a with myPlayer := Client.SceneManager.movedObject true info a.myPlayer }
  | damaged {a : Arena} {attacker : Client.GameObject} : Step P s id a (.damaged attacker)
      { a with myPlayer := (a.myPlayer.onDamaged attacker).1 }
  | deliver {a : Arena} {pkt : CMove} {swing : Bool} {rest : List (CMove × Bool)} {w' : World}
      (hflight : a.flight = (pkt, swing) :: rest)
      (hstep : ServerStep P a.world (.receiveCMove s pkt) w') (hstay : id ∈ w'.room.players) :
      Step P s id a .deliver { a with flight := rest, world := w' }
  | server {a : Arena} {ev : ServerEvent} {w' : World} (hother : ¬ Names id ev)
      (hstep : ServerStep P a.world ev w') (hstay : id ∈ w'.room.players) :
      Step P s id a (.server ev) { a with world := w' }

/-- The session has just connected to a server that has run before, and its client has made its
player of what it was sent. -/
structure Starts (P : Platform) (tilemap : Tilemap) (s : SessionId) (id : ObjectId) (a : Arena) :
    Prop where
  connects : ∃ w, ServerReachable P tilemap w ∧ w.idGenerator = id ∧
    ServerStep P w (.processConnect s) a.world
  myPlayer : a.myPlayer = Client.ownPlayer (enteringPlayer id s).info
  flight : a.flight = []
  swings : a.swings = 0

/-- The state of the player as it is relayed. -/
def relay (a : Arena) (id : ObjectId) : Relay Int32 where
  sender := a.myPlayer.info.state
  channel := a.flight.map fun x => (x.1.info.state, x.2)
  receiver := (a.world.playerState id).getD idle
  sent := a.swings
  seen := a.world.calls id

/-- What every step keeps. -/
structure Relays (s : SessionId) (id : ObjectId) (a : Arena) : Prop where
  registry : Registry a.world
  gameRoom : (a.world.sessions s).gameRoom = true
  present : id ∈ a.world.room.players
  objectid : a.myPlayer.info.objectid = id
  names : ∀ x ∈ a.flight, x.1.info.objectid = id
  exact_relay : (a.relay id).Exact isSwing

/-! ## The steps relay the state -/

theorem Relays.exists_playerState (h : Relays s id a) :
    ∃ prev, a.world.room.info? (.player id) = some prev :=
  Option.isSome_iff_exists.1 (GameRoom.registered_player.2 h.present)

theorem Relays.tick (h : Relays s id a) (frame : Client.Frame) : Relays s id (a.tick frame) := by
  have hid : (a.tick frame).myPlayer.info.objectid = id :=
    (Client.GameObject.objectid_tick a.myPlayer frame).trans h.objectid
  refine ⟨h.registry, h.gameRoom, h.present, hid, ?_, ?_⟩
  · intro x hx
    rcases List.mem_append.1 hx with hx | hx
    · exact h.names x hx
    · obtain ⟨pkt, hpkt, rfl⟩ := List.mem_map.1 hx
      rw [Client.GameObject.info_of_syncToServer (Option.mem_toList.1 hpkt)]
      exact hid
  · cases hsync : (a.myPlayer.tick frame).syncToServer with
    | none =>
      -- nothing is sent, and the state is the same
      have hstate := Client.GameObject.state_tick_of_clean hsync
      have hsame : (a.tick frame).relay id = a.relay id := by
        simp only [relay, Arena.tick, hsync, hstate, isSwing_self, Option.toList_none,
          List.map_nil, List.append_nil, Bool.toNat_false, Nat.add_zero]
      rw [hsame]
      exact h.exact_relay
    | some pkt =>
      have hpkt := Client.GameObject.info_of_syncToServer hsync
      have hsend : (a.tick frame).relay id =
          (a.relay id).send isSwing (a.myPlayer.tick frame).info.state := by
        simp only [relay, Arena.tick, Relay.send, hsync, Option.toList_some, List.map_cons,
          List.map_nil, List.map_append, hpkt]
      rw [hsend]
      exact h.exact_relay.send _

theorem Relays.setPlayer (h : Relays s id a) {o : Client.GameObject}
    (hid : o.info.objectid = a.myPlayer.info.objectid)
    (hstate : o.info.state = a.myPlayer.info.state) : Relays s id { a with myPlayer := o } := by
  refine ⟨h.registry, h.gameRoom, h.present, hid.trans h.objectid, h.names, ?_⟩
  have hsame : ({ a with myPlayer := o } : Arena).relay id = a.relay id := by
    simp only [relay, hstate]
  rw [hsame]
  exact h.exact_relay

theorem Relays.deliver (h : Relays s id a) {pkt : CMove} {swing : Bool} {rest : List (CMove × Bool)}
    (hflight : a.flight = (pkt, swing) :: rest)
    (hstep : ServerStep P a.world (.receiveCMove s pkt) w') (hstay : id ∈ w'.room.players) :
    Relays s id { a with flight := rest, world := w' } ∧
      w'.calls id = a.world.calls id + swing.toNat := by
  have hnames : pkt.info.objectid = id := by
    refine h.names (pkt, swing) ?_
    rw [hflight]
    exact List.mem_cons_self
  obtain ⟨prev, hprev⟩ := h.exists_playerState
  have hok : handleCMove P pkt a.world = .ok w' := by
    cases hstep with
    | receiveCMove hok => rwa [receiveCMove, if_pos h.gameRoom] at hok
  have hcalls := handleCMove_calls_self h.registry hprev hnames hok
  have hafter := (handleCMove_ok h.registry hok).playerState_self h.registry hprev hnames
  have hbefore : (a.relay id).receiver = prev.state := by
    rw [relay, World.playerState, hprev]
    rfl
  have hchannel : (a.relay id).channel =
      (pkt.info.state, swing) :: rest.map fun x => (x.1.info.state, x.2) := by
    rw [relay, hflight]
    rfl
  have hreceive : ({ a with flight := rest, world := w' } : Arena).relay id =
      (a.relay id).receive isSwing pkt.info.state (rest.map fun x => (x.1.info.state, x.2)) := by
    rw [Relay.receive, hbefore]
    simp only [relay, hafter, Option.getD_some, hcalls]
  refine ⟨⟨hstep.registry h.registry, hstep.gameRoom h.registry h.gameRoom, hstay, h.objectid, ?_,
    ?_⟩, ?_⟩
  · intro x hx
    refine h.names x ?_
    rw [hflight]
    exact List.mem_cons_of_mem _ hx
  · rw [hreceive]
    exact h.exact_relay.receive hchannel
  · rw [hcalls, ← hbefore, h.exact_relay.receive_label hchannel]

theorem Relays.server (h : Relays s id a) {ev : ServerEvent} (hother : ¬ Names id ev)
    (hstep : ServerStep P a.world ev w') (hstay : id ∈ w'.room.players) :
    Relays s id { a with world := w' } := by
  refine ⟨hstep.registry h.registry, hstep.gameRoom h.registry h.gameRoom, hstay, h.objectid,
    h.names, ?_⟩
  have hsame : ({ a with world := w' } : Arena).relay id = a.relay id := by
    simp only [relay, hstep.calls_of_not_names h.registry hother,
      hstep.playerState_of_not_names h.registry hother h.present hstay]
  rw [hsame]
  exact h.exact_relay

theorem Step.relays {e : Event} (hs : Step P s id a e a') (h : Relays s id a) :
    Relays s id a' := by
  cases hs with
  | tick => exact h.tick _
  | sMove =>
    exact h.setPlayer (Client.SceneManager.objectid_movedObject _ _ _)
      (Client.SceneManager.state_movedObject _ _)
  | damaged =>
    exact h.setPlayer (Client.GameObject.objectid_onDamaged _ _)
      (Client.GameObject.state_onDamaged _ _)
  | deliver hflight hstep hstay => exact (h.deliver hflight hstep hstay).1
  | server hother hstep hstay => exact h.server hother hstep hstay

end Arena

/-! ## A new player -/

/-- Nobody has been called to attack who has not been there yet. -/
theorem calls_of_new (h : ServerReachable P tilemap w) (hid : w.idGenerator ≤ id) :
    w.calls id = 0 := by
  have hall : Registry w ∧ ∀ id, w.idGenerator ≤ id → w.calls id = 0 := by
    refine h.invariant (I := fun w => Registry w ∧ ∀ id, w.idGenerator ≤ id → w.calls id = 0) ?_
      ⟨registry_init tilemap, fun _ _ => rfl⟩
    rintro w₁ ev w₂ ⟨hr, hnew⟩ - hs
    refine ⟨hs.registry hr, fun id hid => ?_⟩
    have hid₁ : w₁.idGenerator ≤ id := (hs.idGenerator_le hr).trans hid
    rw [← hnew id hid₁]
    by_cases hnames : Names id ev
    · -- a packet that names a new id finds nothing
      cases hs with
      | receiveCMove hok =>
        rename_i pkt
        rcases receiveCMove_ok hr hok with rfl | hm
        · rfl
        · cases hm with
          | absent => rfl
          | moved hfind =>
            obtain ⟨hfound, hreg⟩ := GameRoom.findObject_eq_some hfind
            have hnames : pkt.info.objectid = id := hnames
            have hlt := hr.lt_idGenerator hreg
            rw [hfound, hnames] at hlt
            exact absurd hid₁ (Nat.not_le.2 hlt)
      | processConnect | disconnect | processSend | update => exact absurd hnames not_false
    · exact hs.calls_of_not_names hr hnames
  exact hall.2 id hid

theorem Arena.Starts.relays {a : Arena} (h : a.Starts P tilemap s id) : a.Relays s id := by
  obtain ⟨w, hw, rfl, hstep⟩ := h.connects
  have hr : Registry w := registry_of_serverRun hw (registry_init tilemap)
  have hcalls : a.world.calls w.idGenerator = 0 := by
    rw [hstep.calls_of_not_names hr not_false]
    exact calls_of_new hw le_rfl
  have hregistry : Registry a.world := hstep.registry hr
  cases hstep with
  | processConnect hnew hok =>
    have hc := processConnect_ok hr (congrArg GameSession.player hnew) hok
    have hinfo : a.world.room.info? (.player w.idGenerator) =
        some (enteringPlayer w.idGenerator s).info := by
      rw [hc.room, GameRoom.info?_addPlayer]
      exact if_pos rfl
    have hstate : a.myPlayer.info.state = idle := by rw [h.myPlayer]; rfl
    have hstart : a.relay w.idGenerator = ⟨idle, [], idle, 0, 0⟩ := by
      simp only [Arena.relay, World.playerState, h.flight, h.swings, hinfo, hcalls, hstate,
        List.map_nil, Option.map_some, Option.getD_some]
      rfl
    refine ⟨hregistry, hc.self.2, ?_, by rw [h.myPlayer]; rfl, ?_, ?_⟩
    · exact GameRoom.registered_player.1 (GameRoom.registered_of_info? hinfo)
    · rw [h.flight]
      exact fun _ hx => absurd hx List.not_mem_nil
    · rw [hstart]
      exact .start idle 0

/-! ## Every run -/

/-- **One swing on the client is one call of `ProcessSkill` on the server**: at every time the calls
and the swings under way add up to the swings, so that all swings have been called for once nothing
is under way; a packet makes the server call it exactly if its tick was a swing, and nothing else
does. -/
theorem swings_of_run {a₀ a : Arena} (hstart : a₀.Starts P tilemap s id)
    (h : Reaches (Arena.Step P s id) (fun _ _ => True) a₀ a) :
    a.world.calls id + a.flight.countP (·.2) = a.swings ∧
    (a.flight = [] → a.world.calls id = a.swings) ∧
    (∀ pkt swing rest a', a.flight = (pkt, swing) :: rest → Arena.Step P s id a .deliver a' →
      a'.world.calls id = a.world.calls id + swing.toNat) ∧
    ∀ e a', e ≠ .deliver → Arena.Step P s id a e a' → a'.world.calls id = a.world.calls id := by
  have hrelays : a.Relays s id :=
    h.invariant (fun _ _ _ hr _ hs => hs.relays hr) hstart.relays
  have hsum := hrelays.exact_relay.sum
  have hcount : (a.relay id).channel.countP (·.2) = a.flight.countP (·.2) := by
    rw [Arena.relay, List.countP_map]
    rfl
  rw [hcount] at hsum
  refine ⟨hsum, fun hempty => ?_, ?_, ?_⟩
  · refine hrelays.exact_relay.seen_eq ?_
    rw [Arena.relay, hempty, List.map_nil]
  · intro pkt swing rest a' hflight hs
    cases hs with
    | deliver hflight' hstep hstay =>
      obtain ⟨hhead, rfl⟩ := List.cons.inj (hflight.symm.trans hflight')
      obtain ⟨rfl, rfl⟩ := Prod.mk.inj hhead
      exact (hrelays.deliver hflight hstep hstay).2
  · intro e a' hne hs
    cases hs with
    | tick | sMove | damaged => rfl
    | deliver => exact absurd rfl hne
    | server hother hstep _ => exact hstep.calls_of_not_names hrelays.registry hother

/-! ## A swing -/

/-- The first client, with its player facing upwards. -/
def firstArena : Arena where
  myPlayer := Client.ownPlayer (enteringPlayer 2 0).info
  world := afterConnect .accepted

/-- That client after a frame in which the space bar was held. -/
def swungArena : Arena := firstArena.tick { keys := { spaceBar := true } }

/-- The server after it has handled the packet of that frame. -/
def swungWorld : World :=
  Result.world (receiveCMove (.always .accepted) 0 ⟨swungArena.myPlayer.info⟩ firstArena.world)

theorem swings_swungWorld : swungWorld.calls 2 = 1 := by
  have hstart : firstArena.Starts (.always .accepted) {} 0 2 :=
    ⟨⟨World.init {}, .refl _, rfl, .processConnect rfl rfl⟩, rfl, rfl, rfl⟩
  have htick : Reaches (Arena.Step (.always .accepted) 0 2) (fun _ _ => True) firstArena
      swungArena :=
    .single (e := .tick _) trivial .tick
  have hstep : ServerStep (.always .accepted) swungArena.world
      (.receiveCMove 0 ⟨swungArena.myPlayer.info⟩) swungWorld := .receiveCMove rfl
  have hflight : swungArena.flight = [(⟨swungArena.myPlayer.info⟩, true)] := rfl
  have hdeliver : Arena.Step (.always .accepted) 0 2 swungArena .deliver
      { swungArena with flight := [], world := swungWorld } :=
    .deliver hflight hstep (by decide)
  exact (swings_of_run hstart (htick.tail trivial hdeliver)).2.1 rfl

end Zelda.Server
