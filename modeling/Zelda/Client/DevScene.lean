import Zelda.Foundations.Keyed
import Zelda.Client.GameObject

/-!
# The scene and the packet handlers

The actors of `DevScene` and what the messages of the server do to them. The current scene is a
`DevScene`. Pointers to an object come from `GetObject`, so changing or removing the object behind a
pointer is changing or removing the first object with its id.

* `getObject_modifyObject`, `ids_modifyObject`: a change is a change of one object.
* `getObject_removeObject`, `ids_removeObject`: a removal takes one object out.
* `getObject_addActor`, `ids_addActor`: a new object is found if its id is new.
-/

namespace Zelda.Client

open Protocol

/-- `enum LAYER_TYPE` -/
inductive LayerType
  | background
  | object
  | effect
  | ui
  deriving DecidableEq, Repr

/-- `class Actor`: an object of the game, or something else that only its name tells apart. -/
inductive Actor
  | gameObject (o : GameObject)
  | other (name : String)
  deriving DecidableEq

/-- The id of an actor, if it is a `GameObject`. -/
def Actor.objectid? : Actor → Option ObjectId
  | .gameObject o => some o.info.objectid
  | .other _ => none

/-- `dynamic_cast<GameObject*>` -/
def Actor.gameObject? : Actor → Option GameObject
  | .gameObject o => some o
  | .other _ => none

/-- Changes the object that an actor is. -/
def Actor.map (f : GameObject → GameObject) : Actor → Actor
  | .gameObject o => .gameObject (f o)
  | .other name => .other name

/-- `class DevScene` -/
structure DevScene where
  actors : LayerType → List Actor := fun _ => []

namespace DevScene

variable (scene : DevScene)

/-- The layer of the game objects. -/
def objects : List Actor := scene.actors .object

/-- Changes the layer of the game objects. -/
def mapObjects (f : List Actor → List Actor) : DevScene :=
  { scene with actors := Function.update scene.actors .object (f scene.objects) }

/-- `Scene::AddActor`, for an object, which is in the layer of objects. -/
def addActor (o : GameObject) : DevScene := scene.mapObjects (· ++ [.gameObject o])

/-- `DevScene::GetObject` -/
def getObject (id : ObjectId) : Option GameObject :=
  (Keyed.lookup Actor.objectid? id scene.objects).bind Actor.gameObject?

/-- Changes the object that `GetObject` finds. -/
def modifyObject (id : ObjectId) (f : GameObject → GameObject) : DevScene :=
  scene.mapObjects (Keyed.adjust Actor.objectid? id (Actor.map f))

/-- `Scene::RemoveActor`, for the object that `GetObject` finds. -/
def removeObject (id : ObjectId) : DevScene :=
  scene.mapObjects (Keyed.remove Actor.objectid? id)

/-- The ids of the objects. -/
def ids : List ObjectId := Keyed.keys Actor.objectid? scene.objects

/-- What is in the scene after `DevScene::Init`. -/
def init : DevScene where
  actors
    | .background => [.other "Stage01"]
    | .object => [.other "TilemapActor"]
    | _ => []

variable {scene} {id id' : ObjectId} {o : GameObject} {f : GameObject → GameObject}

@[simp] theorem objects_mapObjects (g : List Actor → List Actor) :
    (scene.mapObjects g).objects = g scene.objects := by
  show Function.update scene.actors .object (g scene.objects) .object = g scene.objects
  rw [Function.update_self]

theorem getObject_eq_none : scene.getObject id = none ↔ id ∉ scene.ids := by
  rw [ids, ← Keyed.lookup_eq_none, getObject]
  constructor
  · intro h
    cases hl : Keyed.lookup Actor.objectid? id scene.objects with
    | none => rfl
    | some actor =>
      cases actor with
      | gameObject o => simp [hl, Actor.gameObject?] at h
      | other name => cases Keyed.key_of_lookup hl
  · intro h
    rw [h]
    rfl

theorem exists_getObject (h : id ∈ scene.ids) : ∃ o, scene.getObject id = some o := by
  rw [← Option.isSome_iff_exists, Option.isSome_iff_ne_none]
  exact fun hnone => getObject_eq_none.1 hnone h

/-- Without repeated ids, every object is the one its id finds. -/
theorem getObject_of_mem (hnodup : scene.ids.Nodup) (h : .gameObject o ∈ scene.objects) :
    scene.getObject o.info.objectid = some o := by
  rw [getObject, Keyed.lookup_of_mem hnodup h rfl]
  rfl

theorem mem_ids_of_mem (h : .gameObject o ∈ scene.objects) : o.info.objectid ∈ scene.ids :=
  Keyed.mem_keys.2 ⟨_, h, rfl⟩

section

variable (hf : ∀ o, (f o).info.objectid = o.info.objectid)
include hf

theorem objectid?_map_eq (a : Actor) : (a.map f).objectid? = a.objectid? := by
  cases a with
  | gameObject o => exact congrArg some (hf o)
  | other name => rfl

theorem objectid?_map (a : Actor) (h : a.objectid? = some id) :
    (a.map f).objectid? = some id := (objectid?_map_eq hf a).trans h

theorem ids_modifyObject : (scene.modifyObject id f).ids = scene.ids := by
  rw [ids, modifyObject, objects_mapObjects, Keyed.keys_adjust (objectid?_map hf), ids]

theorem getObject_modifyObject : (scene.modifyObject id f).getObject id' =
    if id' = id then (scene.getObject id).map f else scene.getObject id' := by
  rw [getObject, modifyObject, objects_mapObjects, Keyed.lookup_adjust (objectid?_map hf)]
  split
  · rw [getObject]
    cases Keyed.lookup Actor.objectid? id scene.objects with
    | none => rfl
    | some actor => cases actor <;> rfl
  · rfl

end

theorem ids_removeObject : (scene.removeObject id).ids = scene.ids.erase id := by
  rw [ids, removeObject, objects_mapObjects, Keyed.keys_remove, ids]

theorem getObject_removeObject (hnodup : scene.ids.Nodup) : (scene.removeObject id).getObject id' =
    if id' = id then none else scene.getObject id' := by
  rw [getObject, removeObject, objects_mapObjects, Keyed.lookup_remove hnodup]
  split <;> rfl

theorem ids_addActor : (scene.addActor o).ids = scene.ids ++ [o.info.objectid] := by
  rw [ids, addActor, objects_mapObjects, Keyed.keys_append, ids]
  rfl

theorem getObject_addActor (hnew : o.info.objectid ∉ scene.ids) : (scene.addActor o).getObject id =
    if id = o.info.objectid then some o else scene.getObject id := by
  have hlast : Keyed.lookup Actor.objectid? id [.gameObject o] =
      if id = o.info.objectid then some (.gameObject o) else none := by
    rw [Keyed.lookup_cons]
    exact if_congr (by rw [Actor.objectid?, Option.some.injEq, eq_comm]) rfl rfl
  rw [getObject, addActor, objects_mapObjects, Keyed.lookup_append, hlast]
  split
  · rename_i hid
    rw [hid, Keyed.lookup_eq_none.2 hnew]
    rfl
  · rw [Option.or_none]
    rfl

end DevScene

/-- `DevScene::SpawnObject`. The new object is added to the scene by the caller below, after the
assignments that follow: nothing looks at the scene in between. -/
def spawnObject (kind : Kind) (pos : Server.Vec2Int) : GameObject :=
  ((GameObject.new kind).setCellPos pos).beginPlay

/-- The object that `Handle_S_AddObject` makes of an info, if it knows its type. -/
def addedObject (info : ObjectInfo) : Option GameObject :=
  if info.objecttype = objectTypePlayer then
    let player := { spawnObject .player info.getCellPos with info := info }
    some ((player.refreshStatFromInfo.setDir info.dir).setState info.state)
  else if info.objecttype = objectTypeMonster then
    let monster := { spawnObject .monster info.getCellPos with info := info }
    let monster := { monster with stat := GameObject.statFrom monster.stat info }
    some ((monster.setDir info.dir).setState info.state)
  else none

/-- The scene with `SceneManager::_myPlayer`, by the id of the object it points to. -/
structure SceneManager where
  scene : DevScene := .init
  myPlayer : Option ObjectId := none

namespace SceneManager

variable (m : SceneManager)

/-- `SceneManager::GetMyPlayerId` -/
def getMyPlayerId : ObjectId := m.myPlayer.getD 0

/-- The loop body of `Handle_S_AddObject`. -/
def addObject (info : ObjectInfo) : SceneManager :=
  if m.getMyPlayerId = info.objectid then m
  else
    match addedObject info with
    | some o => { m with scene := m.scene.addActor o }
    | none => m

/-- `DevScene::Handle_S_AddObject` -/
def handleSAddObject (objects : List ObjectInfo) : SceneManager := objects.foldl addObject m

/-- The id that `GetObject` is called with after `int32 id = pkt.ids(i)`. -/
def int32Id (id : ObjectId) : ObjectId := ((Int32.ofNat id).toInt % 2 ^ 64).toNat

/-- The loop body of `Handle_S_RemoveObject`. -/
def removeObject (id : ObjectId) : SceneManager :=
  match m.scene.getObject (int32Id id) with
  | some _ => { m with scene := m.scene.removeObject (int32Id id) }
  | none => m

/-- `DevScene::Handle_S_RemoveObject` -/
def handleSRemoveObject (ids : List ObjectId) : SceneManager := ids.foldl removeObject m

/-- `ClientPacketHandler::Handle_S_MyPlayer` -/
def handleSMyPlayer (info : ObjectInfo) : SceneManager :=
  let myPlayer := { spawnObject .myPlayer info.getCellPos with info := info }.refreshStatFromInfo
  { scene := m.scene.addActor myPlayer, myPlayer := some myPlayer.info.objectid }

/-- The statistics that `Handle_S_Move` writes to an object; every object that the handlers create
is a `Creature`. -/
def writeStat (info : ObjectInfo) (o : GameObject) : GameObject :=
  { o with
    info := { o.info with
      attack := info.attack, defence := info.defence, hp := info.hp, maxhp := info.maxhp }
    stat := GameObject.statFrom o.stat info }

/-- The same, with what a `Player` makes of them. -/
def takeStat (info : ObjectInfo) (o : GameObject) : GameObject :=
  if o.kind.isPlayer then (writeStat info o).refreshStatFromInfo else writeStat info o

@[simp] theorem kind_takeStat (info : ObjectInfo) (o : GameObject) :
    (takeStat info o).kind = o.kind := by
  unfold takeStat
  split <;> rfl

/-- What `Handle_S_Move` does to the object it finds. -/
def movedObject (isMyPlayer : Bool) (info : ObjectInfo) (o : GameObject) : GameObject :=
  let o := takeStat info o
  if isMyPlayer then o
  else ((o.setDir info.dir).setState info.state).setCellPos info.getCellPos

theorem kind_movedObject (isMyPlayer : Bool) (info : ObjectInfo) (o : GameObject) :
    (movedObject isMyPlayer info o).kind = o.kind := by
  cases isMyPlayer with
  | true => exact kind_takeStat info o
  | false =>
    show ((((takeStat info o).setDir info.dir).setState info.state).setCellPos
      info.getCellPos).kind = _
    rw [GameObject.kind_setCellPos, GameObject.kind_setState, GameObject.kind_setDir, kind_takeStat]

/-- `ClientPacketHandler::Handle_S_Move` -/
def handleSMove (info : ObjectInfo) : SceneManager :=
  match m.scene.getObject info.objectid with
  | none => m
  | some _ =>
    let isMyPlayer : Bool := m.getMyPlayerId = info.objectid
    { m with scene := m.scene.modifyObject info.objectid (movedObject isMyPlayer info) }

/-- `ClientPacketHandler::HandlePacket` -/
def handlePacket : ServerPacket → SceneManager
  | .sEnterGame _ _ => m
  | .sMyPlayer info => m.handleSMyPlayer info
  | .sAddObject objects => m.handleSAddObject objects
  | .sRemoveObject ids => m.handleSRemoveObject ids
  | .sMove info => m.handleSMove info

/-- A client that handles packets one after the other. -/
def replay (pkts : List ServerPacket) : SceneManager := pkts.foldl handlePacket m

end SceneManager

end Zelda.Client
