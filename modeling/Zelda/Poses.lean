import Zelda.Foundations.Echo
import Zelda.Swings

/-!
# Where a player is

The client moves and turns its own player by itself, and the server takes over what the packets say.
Neither side corrects the other: `Handle_S_Move` leaves the pose of the own player alone, and the
room changes the pose of a player only where a packet names it. So the pose that the room has, once
it has handled what is under way, is the pose on the client (`poses_of_run`).
-/

namespace Zelda

open Protocol

/-- How an object stands: its state, its direction and its cell. -/
structure Pose where
  state : Int32
  dir : Int32
  cellPos : Server.Vec2Int
  deriving DecidableEq

/-- The pose of an object. -/
def Protocol.ObjectInfo.pose (info : ObjectInfo) : Pose := ⟨info.state, info.dir, info.getCellPos⟩

namespace Client

/-! ## The client -/

variable {o o' o'' : GameObject}

/-- Setters that set the dirty flag when they change the pose, and never clear it. -/
structure Stirs (o o' : GameObject) : Prop where
  dirty : o.dirtyFlag = true → o'.dirtyFlag = true
  pose : o'.dirtyFlag = false → o'.info.pose = o.info.pose

namespace Stirs

theorem refl (o : GameObject) : Stirs o o := ⟨id, fun _ => rfl⟩

theorem trans (h : Stirs o o') (h' : Stirs o' o'') : Stirs o o'' where
  dirty hd := h'.dirty (h.dirty hd)
  pose hclean := by
    have hclean' : o'.dirtyFlag = false := by
      by_contra hd
      cases hclean.symm.trans (h'.dirty (eq_true_of_ne_false hd))
    exact (h'.pose hclean).trans (h.pose hclean')

theorem of_dirty (hd : o'.dirtyFlag = true) : Stirs o o' :=
  ⟨fun _ => hd, fun hclean => nomatch hd.symm.trans hclean⟩

theorem elim {α : Type} {f : α → GameObject} (x : Option α) (hf : ∀ a, Stirs o (f a)) :
    Stirs o (x.elim o f) := by
  cases x with
  | none => exact refl o
  | some a => exact hf a

end Stirs

namespace GameObject

theorem stirs_setState (o : GameObject) (state : Int32) : Stirs o (o.setState state) := by
  by_cases hsame : o.info.state = state
  · rw [setState, if_pos hsame]
    exact .refl o
  · refine .of_dirty ?_
    rw [setState, if_neg hsame]

theorem stirs_setDir (o : GameObject) (dir : Int32) : Stirs o (o.setDir dir) := .of_dirty rfl

theorem stirs_setCellPos (o : GameObject) (cellPos : Server.Vec2Int) :
    Stirs o (o.setCellPos cellPos) := .of_dirty rfl

theorem stirs_setWeaponType (o : GameObject) (weaponType : WeaponType) :
    Stirs o (o.setWeaponType weaponType) where
  dirty hd := by simp [setWeaponType, hd]
  pose _ := rfl

theorem stirs_tickInput (o : GameObject) (keys : Keys) : Stirs o (o.tickInput keys).1 := by
  have hturn : Stirs o (keys.dir.elim o o.setDir) := .elim _ o.stirs_setDir
  set turned := keys.dir.elim o o.setDir
  have harm : Stirs turned (keys.weapon.elim turned turned.setWeaponType) :=
    .elim _ turned.stirs_setWeaponType
  refine (hturn.trans harm).trans ?_
  set armed := keys.weapon.elim turned turned.setWeaponType
  show Stirs armed (if keys.spaceBar then armed.setState skill else armed)
  split
  · exact stirs_setState _ _
  · exact .refl _

theorem stirs_tryMove (o : GameObject) (canGo : Server.Vec2Int → Bool) (keyPressed : Bool) :
    Stirs o (o.tryMove canGo keyPressed) := by
  unfold tryMove
  split
  · exact .refl o
  · split
    · exact .refl o
    · simp only
      split
      · exact (stirs_setCellPos o _).trans (stirs_setState _ _)
      · exact .refl o

theorem stirs_tick (o : GameObject) (frame : Frame) :
    Stirs { o with dirtyFlag := false } (o.tick frame) := by
  unfold tick
  simp only
  split
  · exact (stirs_tickInput _ frame.keys).trans (stirs_tryMove _ _ _)
  · split
    · unfold tickMove
      split
      · exact stirs_setState _ _
      · exact .refl _
    · split
      · unfold tickSkill
        split
        · exact .refl _
        · split
          · exact stirs_setState _ _
          · exact .refl _
      · exact .refl _

/-- A frame that sends nothing has left the pose as it was. -/
theorem pose_tick_of_clean {frame : Frame} (h : (o.tick frame).syncToServer = none) :
    (o.tick frame).info.pose = o.info.pose := by
  refine (stirs_tick o frame).pose ?_
  unfold syncToServer at h
  split at h
  · cases h
  · rename_i hclean
    exact eq_false_of_ne_true hclean

/-- A player that is hit stays where it is. -/
theorem pose_onDamaged (o attacker : GameObject) :
    (o.onDamaged attacker).1.info.pose = o.info.pose := by
  unfold onDamaged
  split <;> rfl

end GameObject

/-- The own player is made where the server says. -/
theorem pose_ownPlayer (info : ObjectInfo) : (ownPlayer info).info.pose = info.pose := rfl

/-- No message of the server moves or turns the own player. -/
theorem SceneManager.pose_movedObject (info : ObjectInfo) (o : GameObject) :
    (movedObject true info o).info.pose = o.info.pose := by
  show (takeStat info o).info.pose = _
  unfold takeStat
  split <;> rfl

end Client

namespace Server

/-! ## The server -/

variable {P : Platform} {w w' : World} {s : SessionId} {id : ObjectId} {tilemap : Tilemap}

/-- The pose of a player in the room. -/
def World.playerPose (w : World) (id : ObjectId) : Option Pose :=
  (w.room.info? (.player id)).map (·.pose)

theorem World.playerPose_of_room (h : w'.room = w.room) : w'.playerPose id = w.playerPose id := by
  rw [playerPose, h, playerPose]

/-- No edit changes the pose of a player that stays. -/
theorem Edit.playerPose (he : Edit w w') (hstay : id ∈ w'.room.players) :
    w'.playerPose id = w.playerPose id := by
  cases he with
  | skill | damage => rfl
  | @hurt _ _ victim a v _ hv _ hq =>
    rw [World.playerPose_of_room hq.room, World.playerPose, World.info?_modifyInfo,
      World.playerPose]
    split
    · rename_i hvictim
      rw [hvictim, hv]
      rfl
    · rfl
  | erase _ hq =>
    rw [hq.room, ← GameRoom.registered_player, World.room_erase, GameRoom.registered_erase] at hstay
    rw [World.playerPose_of_room hq.room, World.playerPose, World.info?_erase, if_neg hstay.1,
      World.playerPose]
  | think hm =>
    rw [World.playerPose, World.info?_modifyMonster, if_neg ObjectRef.noConfusion,
      World.playerPose]
  | act _ _ _ hq =>
    rw [World.playerPose_of_room hq.room, World.playerPose, World.info?_modifyMonster,
      if_neg ObjectRef.noConfusion, World.playerPose]
  | announce _ hq => exact World.playerPose_of_room hq.room

theorem Edits.playerPose (he : Edits w w') (hstay : id ∈ w'.room.players) :
    w'.playerPose id = w.playerPose id := by
  induction he with
  | refl => rfl
  | tail _ hlast ih =>
    rw [hlast.playerPose hstay]
    exact ih (Edits.mem_players (.single hlast) hstay)

theorem moveInfo_pose (pkt : CMove) (info : ObjectInfo) :
    (moveInfo pkt info).pose = pkt.info.pose := by
  rw [ObjectInfo.pose, moveInfo_state, moveInfo_dir, moveInfo_getCellPos, ObjectInfo.pose]

/-- A packet gives the player that it names the pose that it says. -/
theorem Moved.playerPose {pkt : CMove} (hm : Moved pkt w w')
    (hstay : id ∈ w'.room.players) : w'.playerPose id =
      if pkt.info.objectid = id then some pkt.info.pose else w.playerPose id := by
  have hid : id ∈ w.room.players :=
    GameRoom.registered_player.1 (hm.registered (GameRoom.registered_player.2 hstay))
  cases hm with
  | absent hnone =>
    rw [if_neg]
    rintro rfl
    exact (GameRoom.findObject_eq_none.1 hnone).1 hid
  | @moved ref prev w₁ _ hfind hprev hattack _ hq =>
    rw [hq.room] at hstay
    rw [World.playerPose_of_room hq.room, hattack.edits.playerPose hstay, World.playerPose,
      World.info?_modifyInfo_of_info? hprev]
    by_cases hnames : pkt.info.objectid = id
    · have hself : w.room.findObject pkt.info.objectid = some (.player id) := by
        rw [hnames]
        exact GameRoom.findObject_player hid
      obtain rfl := Option.some.inj (hself.symm.trans hfind)
      rw [if_pos rfl, if_pos hnames, Option.map_some, moveInfo_pose]
    · obtain ⟨hfound, -⟩ := GameRoom.findObject_eq_some hfind
      rw [if_neg hnames, if_neg, World.playerPose]
      rintro rfl
      exact hnames hfound.symm

/-- The pose of a player that stays is changed only by a packet that names it. -/
theorem ServerStep.playerPose_of_not_names {ev : ServerEvent} (hs : ServerStep P w ev w')
    (h : Registry w) (hnot : ¬ Names id ev) (hid : id ∈ w.room.players)
    (hstay : id ∈ w'.room.players) : w'.playerPose id = w.playerPose id := by
  rcases hs.change h with
    ⟨w₁, w₂, hbefore, hedits, hafter⟩ | ⟨s, -, -, hc⟩ | ⟨s, pkt, rfl, rfl | hm⟩
  · rw [hafter.room] at hstay
    rw [World.playerPose_of_room hafter.room, hedits.playerPose hstay,
      World.playerPose_of_room hbefore.room]
  · have hlt := h.lt_idGenerator (GameRoom.registered_player.2 hid)
    rw [World.playerPose, hc.room, GameRoom.info?_addPlayer, if_neg, World.playerPose]
    intro heq
    exact hlt.ne (ObjectRef.player.inj heq)
  · rfl
  · rw [hm.playerPose hstay]
    exact if_neg hnot

namespace Arena

variable {a a' : Arena}

/-! ## One client and the server -/

/-- The pose that the room will have for the player when it has handled what is under way. -/
def arriving (a : Arena) (id : ObjectId) : Option Pose :=
  newest (a.world.playerPose id) (a.flight.map fun x => some x.1.info.pose)

theorem arriving_tick (hpose : a.arriving id = some a.myPlayer.info.pose)
    (frame : Client.Frame) :
    (a.tick frame).arriving id = some (a.tick frame).myPlayer.info.pose := by
  cases hsync : (a.myPlayer.tick frame).syncToServer with
  | none =>
    have hclean := Client.GameObject.pose_tick_of_clean hsync
    have hsame : (a.tick frame).arriving id = a.arriving id := by
      simp only [arriving, tick, hsync, Option.toList_none, List.map_nil, List.append_nil]
    rw [hsame, hpose]
    exact congrArg some hclean.symm
  | some pkt =>
    have hpkt := Client.GameObject.info_of_syncToServer hsync
    simp only [arriving, tick, hsync, Option.toList_some, List.map_append, List.map_cons,
      List.map_nil, newest_concat, hpkt]

theorem Step.arriving {e : Event} (hs : Step P s id a e a') (h : a.Relays s id)
    (hpose : a.arriving id = some a.myPlayer.info.pose) :
    a'.arriving id = some a'.myPlayer.info.pose := by
  cases hs with
  | tick => exact arriving_tick hpose _
  | sMove =>
    exact hpose.trans (congrArg some (Client.SceneManager.pose_movedObject _ _).symm)
  | damaged => exact hpose.trans (congrArg some (Client.GameObject.pose_onDamaged _ _).symm)
  | @deliver pkt swing rest w' hflight hstep hstay =>
    have hnames : pkt.info.objectid = id := h.names (pkt, swing) (by rw [hflight]; exact .head _)
    have hok : handleCMove P pkt a.world = .ok w' := by
      cases hstep with
      | receiveCMove hok => rwa [receiveCMove, if_pos h.gameRoom] at hok
    have hafter := (handleCMove_ok h.registry hok).playerPose hstay
    rw [if_pos hnames] at hafter
    rw [Arena.arriving, hflight, List.map_cons, newest_cons] at hpose
    exact (congrArg (newest · _) hafter).trans hpose
  | server hother hstep hstay =>
    have hsame := hstep.playerPose_of_not_names h.registry hother h.present hstay
    exact (congrArg (newest · _) hsame).trans hpose

theorem Starts.arriving (h : a.Starts P tilemap s id) :
    a.arriving id = some a.myPlayer.info.pose := by
  have hplayer := h.myPlayer
  obtain ⟨w, hw, rfl, hstep⟩ := h.connects
  have hr : Registry w := registry_of_serverRun hw (registry_init tilemap)
  cases hstep with
  | processConnect hnew hok =>
    have hc := processConnect_ok hr (congrArg GameSession.player hnew) hok
    have hinfo : a.world.room.info? (.player w.idGenerator) =
        some (enteringPlayer w.idGenerator s).info := by
      rw [hc.room, GameRoom.info?_addPlayer]
      exact if_pos rfl
    rw [Arena.arriving, h.flight, List.map_nil, newest_nil, World.playerPose, hinfo, hplayer,
      Client.pose_ownPlayer, Option.map_some]

end Arena

/-! ## Every run -/

/-- **The room has the player where its client has it**: the pose that the newest packet under way
says, or else the one that the room has, is the pose on the client. So client and room agree on the
cell, the direction and the state of the player whenever nothing is under way. -/
theorem poses_of_run {a₀ a : Arena} (hstart : a₀.Starts P tilemap s id)
    (h : Reaches (Arena.Step P s id) (fun _ _ => True) a₀ a) :
    newest (a.world.playerPose id) (a.flight.map fun x => some x.1.info.pose) =
        some a.myPlayer.info.pose ∧
      (a.flight = [] → a.world.playerPose id = some a.myPlayer.info.pose) := by
  have hall : a.Relays s id ∧ a.arriving id = some a.myPlayer.info.pose := by
    refine h.invariant (I := fun a => a.Relays s id ∧ a.arriving id = some a.myPlayer.info.pose)
      ?_ ⟨hstart.relays, hstart.arriving⟩
    rintro a₁ e a₂ ⟨hr, hpose⟩ - hs
    exact ⟨hs.relays hr, hs.arriving hr hpose⟩
  refine ⟨hall.2, fun hempty => ?_⟩
  have hpose := hall.2
  rwa [Arena.arriving, hempty, List.map_nil, newest_nil] at hpose

/-- The first client after a step to the right. -/
def steppedArena : Arena := firstArena.tick { keys := { d := true }, canGo := fun _ => true }

/-- The server after it has handled the packet of that frame. -/
def steppedWorld : World :=
  Result.world (receiveCMove (.always .accepted) 0 ⟨steppedArena.myPlayer.info⟩ firstArena.world)

theorem poses_of_run_stepped :
    steppedWorld.playerPose 2 = some ⟨move, dirRight, ⟨6, 5⟩⟩ := by
  have hstart : firstArena.Starts (.always .accepted) {} 0 2 :=
    ⟨⟨World.init {}, .refl _, rfl, .processConnect rfl rfl⟩, rfl, rfl, rfl⟩
  have htick : Reaches (Arena.Step (.always .accepted) 0 2) (fun _ _ => True) firstArena
      steppedArena := .single (e := .tick _) trivial .tick
  have hstep : ServerStep (.always .accepted) steppedArena.world
      (.receiveCMove 0 ⟨steppedArena.myPlayer.info⟩) steppedWorld := .receiveCMove rfl
  have hflight : steppedArena.flight = [(⟨steppedArena.myPlayer.info⟩, false)] := rfl
  have hdeliver : Arena.Step (.always .accepted) 0 2 steppedArena .deliver
      { steppedArena with flight := [], world := steppedWorld } :=
    .deliver hflight hstep (by decide)
  have hpose : steppedArena.myPlayer.info.pose = ⟨move, dirRight, ⟨6, 5⟩⟩ := by decide
  exact ((poses_of_run hstart (htick.tail trivial hdeliver)).2 rfl).trans (congrArg some hpose)

end Server

end Zelda
