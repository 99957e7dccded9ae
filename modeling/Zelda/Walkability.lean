import Zelda.Client.Projectile
import Zelda.Replicas
import Zelda.Server.Updates

/-!
# Where one can go, on the client and on the server

The client asks its own scene whether its player can step to a cell, and the server asks its room
when it moves a monster. A client that has handled everything it was sent has the objects of the
room on the cells of the room, except for its own player, which it moves by itself. So both give the
same answer for every cell that the own player is not on.

Main result: `tick_agrees_of_run`. As long as the server has the own player on the cell where the
client has it, a frame of the client does what it would do if the client asked the server.
-/

namespace Zelda.Client

open Protocol

variable {scene : DevScene} {tilemap : Tilemap} {cellPos : Server.Vec2Int} {o : GameObject}

/-! ## The cells of a scene -/

namespace DevScene

theorem getCreatureAt_eq_none : scene.getCreatureAt cellPos = none ↔
    ∀ o, .gameObject o ∈ scene.objects → o.info.getCellPos ≠ cellPos := by
  have hlookup : scene.getCreatureAt cellPos = none ↔
      Keyed.lookup Actor.cellPos? cellPos scene.objects = none := by
    rw [getCreatureAt]
    cases hl : Keyed.lookup Actor.cellPos? cellPos scene.objects with
    | none => exact iff_of_true rfl rfl
    | some actor =>
      cases actor with
      | gameObject o => simp [Actor.gameObject?]
      | other name => cases Keyed.key_of_lookup hl
  rw [hlookup, Keyed.lookup_eq_none, Keyed.mem_keys]
  constructor
  · intro h o ho hcell
    exact h ⟨_, ho, congrArg some hcell⟩
  · rintro h ⟨actor, hactor, hcell⟩
    cases actor with
    | gameObject o => exact h o hactor (Option.some.inj hcell)
    | other name => cases hcell

theorem mem_of_getObject {id : ObjectId} (h : scene.getObject id = some o) :
    .gameObject o ∈ scene.objects := by
  obtain ⟨actor, hactor, hobject⟩ := Option.bind_eq_some_iff.1 h
  cases actor with
  | gameObject o' => exact Option.some.inj hobject ▸ List.mem_of_find?_eq_some hactor
  | other name => cases hobject

/-- The client can go to a cell that is walkable and free. -/
theorem canGo_iff : scene.canGo tilemap cellPos = true ↔ tilemap.Walkable cellPos ∧
    ∀ o, .gameObject o ∈ scene.objects → o.info.getCellPos ≠ cellPos := by
  rw [← getCreatureAt_eq_none, canGo, Server.Tilemap.Walkable]
  cases tilemap.getTileAt cellPos <;> cases scene.getCreatureAt cellPos <;> simp

end DevScene

/-! ## A frame -/

namespace GameObject

theorem cellPos_setState (o : GameObject) (state : Int32) :
    (o.setState state).info.getCellPos = o.info.getCellPos := by
  rw [info_setState]
  rfl

theorem cellPos_setDir (o : GameObject) (dir : Int32) :
    (o.setDir dir).info.getCellPos = o.info.getCellPos := by
  rw [info_setDir]
  rfl

/-- The keys turn the player and switch its weapon where it is. -/
theorem cellPos_tickInput (o : GameObject) (keys : Keys) :
    (o.tickInput keys).1.info.getCellPos = o.info.getCellPos := by
  have hturn : (keys.dir.elim o o.setDir).info.getCellPos = o.info.getCellPos := by
    cases keys.dir with
    | none => rfl
    | some dir => exact cellPos_setDir o dir
  set turned := keys.dir.elim o o.setDir
  have harm : (keys.weapon.elim turned turned.setWeaponType).info.getCellPos =
      turned.info.getCellPos := by
    cases keys.weapon <;> rfl
  set armed := keys.weapon.elim turned turned.setWeaponType
  rw [← hturn, ← harm]
  show (if keys.spaceBar then armed.setState skill else armed).info.getCellPos = _
  split
  · exact cellPos_setState armed skill
  · rfl

/-- Two answers that agree beside the player lead to the same frame. -/
theorem tick_congr (o : GameObject) (frame : Frame) {canGo canGo' : Server.Vec2Int → Bool}
    (h : ∀ dir delta, deltaXY dir = some delta →
      canGo (o.info.getCellPos + delta) = canGo' (o.info.getCellPos + delta)) :
    o.tick { frame with canGo := canGo } = o.tick { frame with canGo := canGo' } := by
  have hmove : ∀ (p : GameObject) (keyPressed : Bool), p.info.getCellPos = o.info.getCellPos →
      p.tryMove canGo keyPressed = p.tryMove canGo' keyPressed := by
    intro p keyPressed hcell
    unfold tryMove
    cases hdelta : deltaXY p.info.dir with
    | none => rfl
    | some delta =>
      simp only [hcell, h _ delta hdelta]
  have hidle : ({ o with dirtyFlag := false } : GameObject).tickIdle { frame with canGo := canGo } =
      ({ o with dirtyFlag := false } : GameObject).tickIdle { frame with canGo := canGo' } :=
    hmove _ _ (cellPos_tickInput { o with dirtyFlag := false } frame.keys)
  rw [tick, tick]
  simp only [hidle]
  rfl

end GameObject

end Zelda.Client

namespace Zelda.Server

open Client Protocol

variable {w : World} {tilemap : Tilemap} {s : SessionId} {pid : ObjectId}

/-! ## Mirrors -/

/-- For cells that neither side has the own player on, a mirror can go where the room can go. -/
theorem canGo_of_mirrors {m : SceneManager} {f : Client.GameObject → Client.GameObject}
    {o : Client.GameObject} {own : ObjectInfo} (hm : Mirrors pid (fun _ => False) m w.room.view)
    (hr : Registry w) (hf : ∀ o, (f o).info.objectid = o.info.objectid)
    (ho : (m.scene.modifyObject pid f).getObject pid = some o)
    (hown : w.room.info? (.player pid) = some own) {c : Vec2Int}
    (hclient : o.info.getCellPos ≠ c) (hserver : own.getCellPos ≠ c) :
    (m.scene.modifyObject pid f).canGo w.room.tilemap c = w.room.canGo c := by
  have hother : ∀ id ≠ pid, (m.scene.modifyObject pid f).getObject id = m.scene.getObject id :=
    fun id hne => by rw [DevScene.getObject_modifyObject hf, if_neg hne]
  have hnodup : (m.scene.modifyObject pid f).ids.Nodup := by
    rw [DevScene.ids_modifyObject hf]
    exact hm.nodup
  rw [Bool.eq_iff_iff, DevScene.canGo_iff, GameRoom.canGo_iff]
  refine and_congr_right fun _ => ⟨fun hfree ref info hi => ?_, fun hfree p hp => ?_⟩
  · by_cases hid : ref.id = pid
    · -- no other object has the id of the own player
      have href : ref = .player pid := by
        by_contra hne
        cases (hr.alone (GameRoom.registered_of_info? hown) hid hne).symm.trans hi
      rw [href, hown] at hi
      exact Option.some.inj hi ▸ hserver
    · have hview := hr.view_of_info? hi
      have hmem : ref.id ∈ m.scene.ids := (hm.mem_ids _).2 (by rw [hview]; rfl)
      obtain ⟨p, hp⟩ := DevScene.exists_getObject hmem
      have hshows := (hm.shows hview hid hp).2 not_false
      rw [← hshows.cellPos]
      exact hfree p (DevScene.mem_of_getObject ((hother _ hid).trans hp))
  · have hget := DevScene.getObject_of_mem hnodup hp
    by_cases hid : p.info.objectid = pid
    · rw [hid, ho] at hget
      exact Option.some.inj hget ▸ hclient
    · rw [hother _ hid] at hget
      have hmem : p.info.objectid ∈ m.scene.ids := by
        by_contra hnot
        cases (DevScene.getObject_eq_none.2 hnot).symm.trans hget
      obtain ⟨info, hview⟩ := Option.isSome_iff_exists.1 ((hm.mem_ids _).1 hmem)
      obtain ⟨ref, -, hi⟩ := GameRoom.exists_ref_of_view hview
      rw [((hm.shows hview hid hget).2 not_false).cellPos]
      exact hfree ref info hi

theorem tilemap_of_run {P : Platform} {C : World → RoomEvent → Prop}
    (h : Reaches (RoomStep P) C (World.opened tilemap) w) : w.room.tilemap = tilemap := by
  have hall : Registry w ∧ w.room.tilemap = tilemap := by
    refine h.invariant (I := fun w => Registry w ∧ w.room.tilemap = tilemap) ?_
      ⟨(ready_opened tilemap).registry, rfl⟩
    rintro w₁ ev w₂ ⟨hr, hmap⟩ - hs
    exact ⟨hs.registry hr, (hs.tilemap_eq hr).trans hmap⟩
  exact hall.2

/-- **The client lets its player go where the server would.** In every run of the room with accepted
sends and one of the four directions in every packet that names an object, a client can handle what
it was sent. Whatever it has done with its own player, it finds the same cells free as the room,
except for those its own player is on. So if the server has that player where the client has it, a
frame of the client does what it would do with the answers of the server. -/
theorem tick_agrees_of_run {pq : PriorityQueue PQNode PQNode.cost}
    (h : Reaches (RoomStep (.accepting pq)) RoomAimed (World.opened tilemap) w)
    (hids : w.idGenerator ≤ 2 ^ 31) (hs : w.room.session? pid = some s) :
    ∃ m, clientOf? w s = some m ∧ ∀ (f : Client.GameObject → Client.GameObject) o own,
      (∀ p, (f p).info.objectid = p.info.objectid) →
      (m.scene.modifyObject pid f).getObject pid = some o →
      w.room.info? (.player pid) = some own →
      (∀ c, o.info.getCellPos ≠ c → own.getCellPos ≠ c →
        (m.scene.modifyObject pid f).canGo tilemap c = w.room.canGo c) ∧
      (o.info.getCellPos = own.getCellPos → ∀ frame : Frame,
        o.tick { frame with canGo := (m.scene.modifyObject pid f).canGo tilemap } =
          o.tick { frame with canGo := w.room.canGo }) := by
  obtain ⟨hsynced, hdir⟩ := aimed_of_run h
  have hmirrors := hsynced.replicated hids s pid hs
  refine ⟨_, hdir.clientOf? s, fun f o own hf ho hown => ?_⟩
  have hagree : ∀ c, o.info.getCellPos ≠ c → own.getCellPos ≠ c →
      ((clientOf w s).scene.modifyObject pid f).canGo tilemap c = w.room.canGo c := by
    intro c hclient hserver
    have hgo := canGo_of_mirrors hmirrors hsynced.registry hf ho hown hclient hserver
    rwa [tilemap_of_run h] at hgo
  refine ⟨hagree, fun hcell frame => Client.GameObject.tick_congr o frame ?_⟩
  intro dir delta hdelta
  have hfront : delta ∈ front := by
    unfold Client.GameObject.deltaXY at hdelta
    split_ifs at hdelta <;> cases hdelta <;> decide
  have hne : o.info.getCellPos ≠ o.info.getCellPos + delta := Ne.symm (front_ne hfront)
  exact hagree _ hne (hcell ▸ hne)

/-- A player has entered beside the cells of `nookMap`, and turns to the right. -/
def enteredNook : World :=
  [.enterRoom 0, .handleCMove ⟨(enteringPlayer 2 0).info.setDir dirRight⟩].foldl RoomEvent.act
    (World.opened nookMap)

theorem tick_agrees_of_run_enteredNook : ∃ m o, clientOf? enteredNook 0 = some m ∧
    (m.scene.modifyObject 2 id).getObject 2 = some o ∧
    ∀ c, o.info.getCellPos ≠ c → spawnCell ≠ c →
      (m.scene.modifyObject 2 id).canGo nookMap c = enteredNook.room.canGo c := by
  have hrun : Reaches (RoomStep (.accepting (.selection PQNode.cost))) RoomAimed
      (World.opened nookMap) enteredNook := roomAimed_acts (by decide +kernel)
  have hplayer : enteredNook.room.session? 2 = some 0 := by decide +kernel
  have hown : enteredNook.room.info? (.player 2) =
      some ((enteringPlayer 2 0).info.setDir dirRight) := by
    decide +kernel
  obtain ⟨m, hm, hagree⟩ := tick_agrees_of_run hrun (by decide +kernel) hplayer
  obtain ⟨o, ho⟩ : ∃ o, (m.scene.modifyObject 2 id).getObject 2 = some o := by
    rw [clientOf_of_clientOf? hm]
    exact Option.isSome_iff_exists.1 (by decide +kernel)
  exact ⟨m, o, hm, ho, (hagree id o _ (fun _ => rfl) ho hown).1⟩

end Zelda.Server
