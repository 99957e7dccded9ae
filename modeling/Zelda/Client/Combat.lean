import Zelda.Client.Animation
import Zelda.Client.Mirror
import Zelda.Client.MyPlayer

/-!
# Fights on the client

The client lets its own copies of the objects fight: at the end of its attack with the sword a
player hits the creature in front of it, whatever it is, and a monster in the state `SKILL` does so
at once. `OnDamaged` takes a creature whose last hp is gone out of the scene, without asking the
server.

`DevScene.tickActor` is the tick of one actor, with the packet it sends and the creature it removes.
`Scene::Update` goes through a copy of the list of actors, so an actor that was removed in a pass
may still tick in it (`DevScene.tickGone`). Arrows, staff projectiles and hit effects hurt nobody
and are left out.

* `ids_tickActor`, `ids_tickGone`: a tick brings no object into the scene.
* `mem_ids_removes`: who is removed was there.
-/

namespace Zelda.Client

open Protocol

/-! ## One object -/

/-- The way a monster goes to the place where it is to be drawn, from the two floats. -/
structure Drift where
  horizontal : Bool := false
  negative : Bool := false

/-- The direction that `Monster::TickMove` turns to. -/
def Drift.dir (drift : Drift) : Int32 :=
  if drift.horizontal then (if drift.negative then dirLeft else dirRight)
  else (if drift.negative then dirUp else dirDown)

namespace GameObject

/-- `GameObject::Tick` of a player that is not the own one. -/
def tickPlayer (o : GameObject) (frame : Frame) : GameObject :=
  let o := { o with dirtyFlag := false }
  if o.info.state = move then o.tickMove frame
  else if o.info.state = skill then (o.tickSkill frame).1
  else o

/-- `GameObject::Tick` of a monster. `TickIdle` returns at once, and nothing sets `_waitSeconds`. -/
def tickMonster (o : GameObject) (frame : Frame) (drift : Drift) : GameObject :=
  let o := { o with dirtyFlag := false }
  if o.info.state = move then (if frame.arrived then o.setState idle else o.setDir drift.dir)
  else if o.info.state = skill then (if o.flipbook.isSome then o.setState idle else o)
  else o

/-- What a tick does to the object itself. -/
def tickKind (o : GameObject) (frame : Frame) (drift : Drift) : GameObject :=
  match o.kind with
  | .myPlayer => o.tick frame
  | .player => o.tickPlayer frame
  | .monster => o.tickMonster frame drift

/-- The cell that a tick hits. -/
def hitCell (o : GameObject) (frame : Frame) : Option Server.Vec2Int :=
  if o.info.state = skill then
    if o.kind.isPlayer then
      match (o.tickSkill frame).2 with
      | some (.sword front) => some front
      | _ => none
    else o.flipbook.map fun _ => o.info.getFrontCellPos
  else none

/-- `SyncToServer`, which only the own player does. -/
def sends (o : GameObject) : Option CMove := if o.kind = .myPlayer then o.syncToServer else none

theorem evolves_tickKind (o : GameObject) (frame : Frame) (drift : Drift) :
    Evolves { o with dirtyFlag := false } (o.tickKind frame drift) := by
  unfold tickKind
  split
  · exact evolves_tick o frame
  · unfold tickPlayer
    simp only
    split
    · exact evolves_tickMove _ frame
    · split
      · exact evolves_tickSkill _ frame
      · exact .refl _
  · unfold tickMonster
    simp only
    split
    · split
      · exact evolves_setState _ _
      · exact evolves_setDir _ _
    · split
      · split
        · exact evolves_setState _ _
        · exact .refl _
      · exact .refl _

/-- A player with the sword hits at the end of its attack, a monster at once. -/
theorem hitCell_eq_some {o : GameObject} {frame : Frame} {cellPos : Server.Vec2Int} :
    o.hitCell frame = some cellPos ↔ o.info.state = skill ∧ o.flipbook.isSome = true ∧
      (o.kind.isPlayer = true → o.weaponType = .sword ∧ frame.animationEnded = true) ∧
      cellPos = o.info.getFrontCellPos := by
  unfold hitCell tickSkill
  by_cases hstate : o.info.state = skill
  · cases hflipbook : o.flipbook with
    | none => simp
    | some flipbook =>
      cases hkind : o.kind.isPlayer with
      | false =>
        simp only [hstate, reduceIte, Bool.false_eq_true, Option.map_some, Option.some.injEq,
          Option.isSome_some, false_imp_iff, true_and]
        exact eq_comm
      | true =>
        cases hended : frame.animationEnded with
        | false => simp [hstate]
        | true =>
          cases hweapon : o.weaponType with
          | sword =>
            simp only [hstate, reduceIte, Option.some.injEq, Option.isSome_some, and_self, true_and,
              imp_self]
            exact eq_comm
          | bow | staff => simp [hstate]
  · simp [hstate]

/-- The damage that `OnDamaged` takes from the hp. -/
def damageFrom (o attacker : GameObject) : Int32 :=
  if attacker.stat.attack - o.stat.defence ≤ 0 then 1
  else attacker.stat.attack - o.stat.defence

theorem nextHp_eq_zero {o attacker : GameObject} : o.nextHp attacker = 0 ↔
    o.stat.hp - o.damageFrom attacker ≤ 0 ∧ 0 ≤ o.stat.maxHp ∨ o.stat.maxHp = 0 := by
  have hnext : o.nextHp attacker =
      if o.stat.maxHp < (if o.stat.hp - o.damageFrom attacker < 0 then 0
        else o.stat.hp - o.damageFrom attacker) then o.stat.maxHp
      else if o.stat.hp - o.damageFrom attacker < 0 then 0
        else o.stat.hp - o.damageFrom attacker := rfl
  rw [hnext]
  generalize o.stat.hp - o.damageFrom attacker = left
  generalize o.stat.maxHp = maxHp
  have hzero : (0 : Int32).toInt = 0 := rfl
  simp only [Int32.lt_iff_toInt_lt, Int32.le_iff_toInt_le, ← Int32.toInt_inj, hzero]
  split <;> split <;> omega

theorem objectid_tickKind (o : GameObject) (frame : Frame) (drift : Drift) :
    (o.tickKind frame drift).info.objectid = o.info.objectid :=
  (evolves_tickKind o frame drift).objectid

end GameObject

/-! ## The scene -/

/-- The cell of an actor, if it is a `Creature`. -/
def Actor.cellPos? : Actor → Option Server.Vec2Int
  | .gameObject o => some o.info.getCellPos
  | .other _ => none

namespace DevScene

/-- `Scene::GetCreatureAt` -/
def getCreatureAt (scene : DevScene) (cellPos : Server.Vec2Int) : Option GameObject :=
  (Keyed.lookup Actor.cellPos? cellPos scene.objects).bind Actor.gameObject?

/-- Changes the creature that `GetCreatureAt` finds. -/
def modifyCreatureAt (scene : DevScene) (cellPos : Server.Vec2Int) (f : GameObject → GameObject) :
    DevScene :=
  scene.mapObjects (Keyed.adjust Actor.cellPos? cellPos (Actor.map f))

/-- `Scene::RemoveActor`, for the creature that `GetCreatureAt` finds. -/
def removeCreatureAt (scene : DevScene) (cellPos : Server.Vec2Int) : DevScene :=
  scene.mapObjects (Keyed.remove Actor.cellPos? cellPos)

/-- The creature that a hit removes, as the hit leaves it. -/
def victim (scene : DevScene) (attacker : GameObject) (cellPos : Server.Vec2Int) :
    Option GameObject :=
  (scene.getCreatureAt cellPos).bind fun creature =>
    let (creature, removed) := creature.onDamaged attacker
    if removed then some creature else none

/-- What `OnDamaged` writes to the creature that is hit. -/
def hurt (scene : DevScene) (attacker : GameObject) (cellPos : Server.Vec2Int) : DevScene :=
  scene.modifyCreatureAt cellPos fun creature => (creature.onDamaged attacker).1

/-- The removal at the end of `OnDamaged`. -/
def fell (scene : DevScene) (victim : Option GameObject) (cellPos : Server.Vec2Int) : DevScene :=
  if victim.isSome then scene.removeCreatureAt cellPos else scene

/-- What a tick leaves behind: the scene, the packet that is sent, and the creature that
`RemoveActor` has taken out of the scene. -/
structure Ticked where
  scene : DevScene
  sent : Option CMove := none
  removed : Option GameObject := none

/-- The tick of the actor with this id. `RemoveActor` only takes the victim out of the list, so it
may as well come after what the attacker does to itself. -/
def tickActor (scene : DevScene) (id : ObjectId) (frame : Frame) (drift : Drift) : Ticked :=
  match scene.getObject id with
  | none => { scene := scene }
  | some o =>
    match o.hitCell frame with
    | none =>
      { scene := scene.modifyObject id (·.tickKind frame drift)
        sent := (o.tickKind frame drift).sends }
    | some cellPos =>
      let victim := scene.victim o cellPos
      let scene := (scene.hurt o cellPos).modifyObject id (·.tickKind frame drift)
      { scene := scene.fell victim cellPos
        sent := (scene.getObject id).bind GameObject.sends
        removed := victim }

/-- The tick of an actor that was removed earlier in the same pass. -/
def tickGone (scene : DevScene) (o : GameObject) (frame : Frame) (drift : Drift) : Ticked :=
  match o.hitCell frame with
  | none => { scene := scene, sent := (o.tickKind frame drift).sends }
  | some cellPos =>
    { scene := (scene.hurt o cellPos).fell (scene.victim o cellPos) cellPos
      sent := (o.tickKind frame drift).sends
      removed := scene.victim o cellPos }

/-! ## What a tick does to the ids -/

variable {scene : DevScene} {id id' : ObjectId} {o attacker : GameObject} {frame : Frame}
  {drift : Drift} {cellPos : Server.Vec2Int}

theorem ids_hurt : (scene.hurt attacker cellPos).ids = scene.ids := by
  rw [ids, hurt, modifyCreatureAt, objects_mapObjects, ids]
  exact Keyed.keys_adjust_of_key (objectid?_map_eq fun o => GameObject.objectid_onDamaged o attacker)

theorem ids_fell {victim : Option GameObject} :
    (scene.fell victim cellPos).ids ⊆ scene.ids := by
  unfold fell
  split
  · rw [ids, removeCreatureAt, objects_mapObjects]
    exact Keyed.keys_remove_sublist.subset
  · exact List.Subset.refl _

/-- Who is hit is in the scene. -/
theorem mem_ids_getCreatureAt (h : scene.getCreatureAt cellPos = some o) :
    o.info.objectid ∈ scene.ids := by
  obtain ⟨actor, hactor, hobject⟩ := Option.bind_eq_some_iff.1 h
  cases actor with
  | gameObject o' =>
    obtain rfl := Option.some.inj hobject
    exact mem_ids_of_mem (List.mem_of_find?_eq_some hactor)
  | other name => cases hobject

theorem victim_eq_some : scene.victim attacker cellPos = some o ↔
    ∃ v, scene.getCreatureAt cellPos = some v ∧ (v.onDamaged attacker).2 = true ∧
      (v.onDamaged attacker).1 = o := by
  simp [victim, Option.bind_eq_some_iff]

theorem mem_ids_victim (h : scene.victim attacker cellPos = some o) :
    o.info.objectid ∈ scene.ids := by
  obtain ⟨v, hv, -, rfl⟩ := victim_eq_some.1 h
  rw [GameObject.objectid_onDamaged]
  exact mem_ids_getCreatureAt hv

/-- **A tick brings no object into the scene.** -/
theorem ids_tickActor : (scene.tickActor id frame drift).scene.ids ⊆ scene.ids := by
  unfold tickActor
  split
  · exact List.Subset.refl _
  · split
    · rw [ids_modifyObject fun o => GameObject.objectid_tickKind o frame drift]
      exact List.Subset.refl _
    · refine List.Subset.trans ids_fell ?_
      rw [ids_modifyObject fun o => GameObject.objectid_tickKind o frame drift, ids_hurt]
      exact List.Subset.refl _

theorem ids_tickGone : (scene.tickGone o frame drift).scene.ids ⊆ scene.ids := by
  unfold tickGone
  split
  · exact List.Subset.refl _
  · refine List.Subset.trans ids_fell ?_
    rw [ids_hurt]
    exact List.Subset.refl _

/-- The tick of the object would remove the creature. -/
def Removes (scene : DevScene) (attacker : GameObject) (frame : Frame) (o : GameObject) : Prop :=
  ∃ cellPos, attacker.hitCell frame = some cellPos ∧ scene.victim attacker cellPos = some o

/-- The tick of the object hits the creature and takes its last hp. -/
structure Fatal (scene : DevScene) (attacker : GameObject) (frame : Frame) (o : GameObject) : Prop
    where
  state : attacker.info.state = skill
  flipbook : attacker.flipbook.isSome = true
  ended : attacker.kind.isPlayer = true →
    attacker.weaponType = .sword ∧ frame.animationEnded = true
  front : scene.getCreatureAt attacker.info.getFrontCellPos = some o
  alive : o.stat.hp ≠ 0
  last : o.stat.hp - o.damageFrom attacker ≤ 0 ∧ 0 ≤ o.stat.maxHp ∨ o.stat.maxHp = 0

/-- A creature is removed by the hit that takes its last hp. -/
theorem removes_iff : scene.Removes attacker frame o ↔
    ∃ v, scene.Fatal attacker frame v ∧ (v.onDamaged attacker).1 = o := by
  have hdamaged : ∀ v : GameObject, (v.onDamaged attacker).2 = true ↔
      v.stat.hp ≠ 0 ∧ v.nextHp attacker = 0 := by
    intro v
    unfold GameObject.onDamaged
    split
    · rename_i hsame
      rw [hsame]
      exact iff_of_false Bool.false_ne_true fun hand => hand.1 hand.2
    · rename_i hne
      rw [decide_eq_true_iff]
      exact ⟨fun hzero => ⟨fun hhp => hne (hzero.trans hhp.symm), hzero⟩, And.right⟩
  simp only [Removes, victim_eq_some, GameObject.hitCell_eq_some, hdamaged,
    GameObject.nextHp_eq_zero]
  constructor
  · rintro ⟨cellPos, ⟨hstate, hflipbook, hended, rfl⟩, v, hfront, ⟨halive, hlast⟩, ho⟩
    exact ⟨v, ⟨hstate, hflipbook, hended, hfront, halive, hlast⟩, ho⟩
  · rintro ⟨v, ⟨hstate, hflipbook, hended, hfront, halive, hlast⟩, ho⟩
    exact ⟨_, ⟨hstate, hflipbook, hended, rfl⟩, v, hfront, ⟨halive, hlast⟩, ho⟩

theorem removed_tickActor : (scene.tickActor id frame drift).removed = some o ↔
    ∃ attacker, scene.getObject id = some attacker ∧ scene.Removes attacker frame o := by
  unfold tickActor
  cases hget : scene.getObject id with
  | none => simp
  | some attacker =>
    cases hcell : attacker.hitCell frame with
    | none => simp [Removes, hcell]
    | some cellPos => simp [Removes, hcell]

theorem removed_tickGone : (scene.tickGone attacker frame drift).removed = some o ↔
    scene.Removes attacker frame o := by
  unfold tickGone
  cases hcell : attacker.hitCell frame with
  | none => simp [Removes, hcell]
  | some cellPos => simp [Removes, hcell]

/-- **Whom a tick removes was in the scene.** -/
theorem mem_ids_removes (h : scene.Removes attacker frame o) : o.info.objectid ∈ scene.ids := by
  obtain ⟨cellPos, -, hvictim⟩ := h
  exact mem_ids_victim hvictim

end DevScene

/-! ## What messages do to the ids -/

theorem objectid_refreshStatFromInfo (o : GameObject) :
    o.refreshStatFromInfo.info.objectid = o.info.objectid := by
  rw [GameObject.refreshStatFromInfo, syncInfoWithStat]

theorem objectid_addedObject {info : ObjectInfo} {o : GameObject} (h : addedObject info = some o) :
    o.info.objectid = info.objectid := by
  have hset : ∀ (info : ObjectInfo) (dir state : Int32),
      ((info.setDir dir).setState state).objectid = info.objectid := fun _ _ _ => rfl
  unfold addedObject at h
  split at h
  · obtain rfl := Option.some.inj h
    rw [GameObject.info_setState, GameObject.info_setDir, hset, objectid_refreshStatFromInfo]
  · split at h
    · obtain rfl := Option.some.inj h
      rw [GameObject.info_setState, GameObject.info_setDir, hset]
    · cases h

namespace SceneManager

variable {m : SceneManager} {info : ObjectInfo} {pkt : ServerPacket} {id : ObjectId}

theorem ids_addObject (h : id ∈ (m.addObject info).scene.ids) :
    id ∈ m.scene.ids ∨ id = info.objectid := by
  unfold addObject at h
  split at h
  · exact .inl h
  · split at h
    · rename_i o ho
      rw [DevScene.ids_addActor, objectid_addedObject ho, List.mem_append, List.mem_singleton] at h
      exact h
    · exact .inl h

theorem ids_handleSAddObject {objects : List ObjectInfo}
    (h : id ∈ (m.handleSAddObject objects).scene.ids) :
    id ∈ m.scene.ids ∨ ∃ info ∈ objects, info.objectid = id := by
  induction objects generalizing m with
  | nil => exact .inl h
  | cons info objects ih =>
    rcases ih h with hmem | ⟨info', hmem, hid⟩
    · rcases ids_addObject hmem with hmem | hid
      · exact .inl hmem
      · exact .inr ⟨info, List.mem_cons_self, hid.symm⟩
    · exact .inr ⟨info', List.mem_cons_of_mem _ hmem, hid⟩

theorem ids_handleSRemoveObject {ids : List ObjectId}
    (h : id ∈ (m.handleSRemoveObject ids).scene.ids) : id ∈ m.scene.ids := by
  induction ids generalizing m with
  | nil => exact h
  | cons id' ids ih =>
    have hmem : id ∈ (m.removeObject id').scene.ids := ih h
    unfold removeObject at hmem
    split at hmem
    · rw [DevScene.ids_removeObject] at hmem
      exact List.mem_of_mem_erase hmem
    · exact hmem

/-- **A message brings in no object but those it carries.** -/
theorem ids_handlePacket (h : id ∈ (m.handlePacket pkt).scene.ids) :
    id ∈ m.scene.ids ∨ ∃ info ∈ infosOf pkt, info.objectid = id := by
  cases pkt with
  | sEnterGame => exact .inl h
  | sMyPlayer info =>
    simp only [handlePacket, handleSMyPlayer_eq, DevScene.ids_addActor, List.mem_append,
      List.mem_singleton] at h
    refine h.imp_right fun hid => ⟨info, List.mem_cons_self, ?_⟩
    rw [hid, ownPlayer, objectid_refreshStatFromInfo]
  | sAddObject objects => exact ids_handleSAddObject h
  | sRemoveObject ids => exact .inl (ids_handleSRemoveObject h)
  | sMove info =>
    simp only [handlePacket, handleSMove] at h
    split at h
    · exact .inl h
    · rw [DevScene.ids_modifyObject (objectid_movedObject _ info)] at h
      exact .inl h

end SceneManager

end Zelda.Client
