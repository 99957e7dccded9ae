import Zelda.Foundations.Binary32
import Zelda.Server.GameObject

/-!
# The room

The maps of `GameRoom`, its look-ups, and the edits of a single object that its operations are
made of. Objects are named by `ObjectRef`; an edit of the object behind a reference is
`modifyInfo`, and `erase` takes it out of its map.

The lemmas give every edit by what it does to `info?`, so that later proofs need not know the
maps.
-/

namespace Zelda.Server

open Protocol Std

/-- A pointer to an object, by the map it is registered in. -/
inductive ObjectRef
  | player (id : ObjectId)
  | monster (id : ObjectId)
  deriving DecidableEq, Repr

/-- The key of the object in its map. -/
def ObjectRef.id : ObjectRef → ObjectId
  | .player id => id
  | .monster id => id

/-- `class GameRoom` -/
structure GameRoom where
  players : ExtTreeMap ObjectId Player := ∅
  monsters : ExtTreeMap ObjectId Monster := ∅
  tilemap : Tilemap := {}
  deriving DecidableEq

namespace GameRoom

variable (r : GameRoom)

/-- `GameRoom::FindObject` -/
def findObject (id : ObjectId) : Option ObjectRef :=
  if id ∈ r.players then some (.player id)
  else if id ∈ r.monsters then some (.monster id)
  else none

/-- The object behind a reference. -/
def object? : ObjectRef → Option GameObject
  | .player id => r.players[id]?.map Player.toGameObject
  | .monster id => r.monsters[id]?.map Monster.toGameObject

/-- The info of the object behind a reference. -/
def info? (ref : ObjectRef) : Option ObjectInfo := (r.object? ref).map (·.info)

/-- Changes the info of the object behind a reference. -/
def modifyInfo (ref : ObjectRef) (f : ObjectInfo → ObjectInfo) : GameRoom :=
  match ref with
  | .player id => { r with players := r.players.modify id fun p => { p with info := f p.info } }
  | .monster id => { r with monsters := r.monsters.modify id fun m => { m with info := f m.info } }

/-- Takes the object behind a reference out of its map. -/
def erase (ref : ObjectRef) : GameRoom :=
  match ref with
  | .player id => { r with players := r.players.erase id }
  | .monster id => { r with monsters := r.monsters.erase id }

/-- Registers a player under its id; its `room` pointer is set. -/
def addPlayer (p : Player) : GameRoom :=
  { r with players := r.players.insert p.info.objectid { p with room := true } }

/-- Registers a monster under its id; its `room` pointer is set. -/
def addMonster (m : Monster) : GameRoom :=
  { r with monsters := r.monsters.insert m.info.objectid { m with room := true } }

/-- Changes a monster as a whole. -/
def modifyMonster (id : ObjectId) (f : Monster → Monster) : GameRoom :=
  { r with monsters := r.monsters.modify id f }

/-- `_target.lock()`: an erased player is destroyed, so the pointer is empty then. -/
def lock (target : Option ObjectId) : Option (ObjectId × Player) :=
  target.bind fun id => r.players[id]?.map (id, ·)

/-- The objects in the order in which the room goes through them: the players by id, then the
monsters by id. -/
def refs : List ObjectRef := r.players.keys.map .player ++ r.monsters.keys.map .monster

/-- The infos of the objects, in that order. -/
def infos : List ObjectInfo := r.refs.filterMap r.info?

/-- `GameRoom::GetGameObjectAt` -/
def getGameObjectAt (cellPos : Vec2Int) : Option ObjectRef :=
  r.refs.find? fun ref => (r.info? ref).any fun info => info.getCellPos = cellPos

/-- `GameRoom::CanGo` -/
def canGo (cellPos : Vec2Int) : Bool :=
  match r.tilemap.getTileAt cellPos with
  | none => false
  | some tile => if (r.getGameObjectAt cellPos).isSome then false else tile.walkable

/-- One player of the loop of `FindClosestPlayer`: the best distance so far, as the `float` it is
kept in, and whose it is. -/
def closer (pos : Vec2Int) (best : ℤ × Option ObjectId) (item : ObjectId × Player) :
    ℤ × Option ObjectId :=
  let dist := Binary32.ofInt (pos - item.2.info.getCellPos).lengthSquared.toInt
  if dist < best.1 then (dist, some item.1) else best

/-- `GameRoom::FindClosestPlayer` -/
def findClosestPlayer (pos : Vec2Int) : Option ObjectId :=
  (r.players.toList.foldl (closer pos) (Binary32.fltMax, none)).2

/-! ## Registered objects -/

/-- The session of a registered player. -/
def session? (id : ObjectId) : Option SessionId := r.players[id]?.map (·.session)

/-- The object with this reference is registered. -/
def Registered (ref : ObjectRef) : Prop := (r.info? ref).isSome

variable {r} {ref ref' : ObjectRef} {info : ObjectInfo} {f : ObjectInfo → ObjectInfo}

theorem info?_player (id : ObjectId) :
    r.info? (.player id) = r.players[id]?.map (·.info) := by
  simp [info?, object?, Function.comp_def]

theorem info?_monster (id : ObjectId) :
    r.info? (.monster id) = r.monsters[id]?.map (·.info) := by
  simp [info?, object?, Function.comp_def]

theorem info?_of_player {id : ObjectId} {p : Player} (h : r.players[id]? = some p) :
    r.info? (.player id) = some p.info := by
  rw [info?_player, h]
  rfl

theorem info?_of_monster {id : ObjectId} {m : Monster} (h : r.monsters[id]? = some m) :
    r.info? (.monster id) = some m.info := by
  rw [info?_monster, h]
  rfl

theorem registered_player {id : ObjectId} : r.Registered (.player id) ↔ id ∈ r.players := by
  rw [Registered, info?_player, Option.isSome_map, ExtTreeMap.mem_iff_isSome_getElem?]

theorem registered_monster {id : ObjectId} : r.Registered (.monster id) ↔ id ∈ r.monsters := by
  rw [Registered, info?_monster, Option.isSome_map, ExtTreeMap.mem_iff_isSome_getElem?]

theorem mem_players_of_session? {id : ObjectId} {s : SessionId} (h : r.session? id = some s) :
    id ∈ r.players := by
  obtain ⟨p, hp, -⟩ := Option.map_eq_some_iff.1 h
  rw [ExtTreeMap.mem_iff_isSome_getElem?, hp]
  rfl

theorem registered_of_info? (h : r.info? ref = some info) : r.Registered ref := by
  rw [Registered, h]
  rfl

theorem mem_refs : ref ∈ r.refs ↔ r.Registered ref := by
  cases ref with
  | player id => simp [refs, registered_player]
  | monster id => simp [refs, registered_monster]

theorem mem_infos : info ∈ r.infos ↔ ∃ ref, r.info? ref = some info := by
  rw [infos, List.mem_filterMap]
  constructor
  · rintro ⟨ref, -, h⟩
    exact ⟨ref, h⟩
  · rintro ⟨ref, h⟩
    exact ⟨ref, mem_refs.2 (registered_of_info? h), h⟩

theorem findObject_eq_some {id : ObjectId} (h : r.findObject id = some ref) :
    ref.id = id ∧ r.Registered ref := by
  unfold findObject at h
  split at h
  · rename_i hp
    obtain rfl := Option.some.inj h
    exact ⟨rfl, registered_player.2 hp⟩
  · split at h
    · rename_i hm
      obtain rfl := Option.some.inj h
      exact ⟨rfl, registered_monster.2 hm⟩
    · cases h

theorem findObject_eq_none {id : ObjectId} :
    r.findObject id = none ↔ id ∉ r.players ∧ id ∉ r.monsters := by
  unfold findObject
  split
  · simp_all
  · split <;> simp_all

theorem findObject_eq_none_iff {id : ObjectId} :
    r.findObject id = none ↔ ∀ ref, ref.id = id → ¬ r.Registered ref := by
  rw [findObject_eq_none, ← registered_player, ← registered_monster]
  constructor
  · rintro ⟨hp, hm⟩ ref rfl
    cases ref with
    | player id => exact hp
    | monster id => exact hm
  · exact fun h => ⟨h (.player id) rfl, h (.monster id) rfl⟩

theorem getGameObjectAt_eq_some {cellPos : Vec2Int} (h : r.getGameObjectAt cellPos = some ref) :
    ∃ info, r.info? ref = some info ∧ info.getCellPos = cellPos := by
  have hany := List.find?_some h
  rw [Option.any_eq_true] at hany
  obtain ⟨info, hinfo, hcell⟩ := hany
  exact ⟨info, hinfo, of_decide_eq_true hcell⟩

theorem getGameObjectAt_eq_none {cellPos : Vec2Int} :
    r.getGameObjectAt cellPos = none ↔
      ∀ ref info, r.info? ref = some info → info.getCellPos ≠ cellPos := by
  rw [getGameObjectAt, List.find?_eq_none]
  constructor
  · intro h ref info hinfo hcell
    refine h ref (mem_refs.2 (registered_of_info? hinfo)) ?_
    rw [hinfo, Option.any_some, decide_eq_true hcell]
  · intro h ref _ hany
    rw [Option.any_eq_true] at hany
    obtain ⟨info, hinfo, hcell⟩ := hany
    exact h ref info hinfo (of_decide_eq_true hcell)

/-- A cell one can go to is walkable and free. -/
theorem canGo_iff {cellPos : Vec2Int} :
    r.canGo cellPos = true ↔ r.tilemap.Walkable cellPos ∧
      ∀ ref info, r.info? ref = some info → info.getCellPos ≠ cellPos := by
  rw [← getGameObjectAt_eq_none, canGo, Tilemap.Walkable]
  cases r.tilemap.getTileAt cellPos <;> cases r.getGameObjectAt cellPos <;> simp

/-! ## What an edit changes -/

theorem info?_modifyInfo :
    (r.modifyInfo ref f).info? ref' = if ref' = ref then (r.info? ref).map f else r.info? ref' := by
  cases ref <;> cases ref' <;>
    simp only [modifyInfo, info?_player, info?_monster, ExtTreeMap.getElem?_modify,
      LawfulEqCmp.compare_eq_iff_eq, ObjectRef.player.injEq, ObjectRef.monster.injEq, reduceCtorEq,
      if_false]
  all_goals
    split
    · simp_all [Function.comp_def]
    · simp_all [eq_comm]

theorem info?_erase :
    (r.erase ref).info? ref' = if ref' = ref then none else r.info? ref' := by
  cases ref <;> cases ref' <;>
    simp only [erase, info?_player, info?_monster, ExtTreeMap.getElem?_erase,
      LawfulEqCmp.compare_eq_iff_eq, ObjectRef.player.injEq, ObjectRef.monster.injEq, reduceCtorEq,
      if_false]
  all_goals
    split
    · simp_all
    · simp_all [eq_comm]

@[simp] theorem tilemap_modifyInfo : (r.modifyInfo ref f).tilemap = r.tilemap := by
  cases ref <;> rfl

@[simp] theorem tilemap_erase : (r.erase ref).tilemap = r.tilemap := by
  cases ref <;> rfl

@[simp] theorem registered_modifyInfo :
    (r.modifyInfo ref f).Registered ref' ↔ r.Registered ref' := by
  rw [Registered, info?_modifyInfo, Registered]
  split
  · rename_i h
    rw [h, Option.isSome_map]
  · rfl

theorem registered_erase : (r.erase ref).Registered ref' ↔ ref' ≠ ref ∧ r.Registered ref' := by
  rw [Registered, info?_erase, Registered]
  split <;> simp_all

@[simp] theorem session?_modifyInfo (id : ObjectId) :
    (r.modifyInfo ref f).session? id = r.session? id := by
  cases ref with
  | player id' =>
    simp only [session?, modifyInfo, ExtTreeMap.getElem?_modify]
    split
    · simp_all [Function.comp_def]
    · rfl
  | monster id' => rfl

theorem session?_erase (id : ObjectId) :
    (r.erase ref).session? id = if ref = .player id then none else r.session? id := by
  cases ref with
  | player id' =>
    simp only [session?, erase, ExtTreeMap.getElem?_erase, LawfulEqCmp.compare_eq_iff_eq,
      ObjectRef.player.injEq]
    split <;> rfl
  | monster id' => simp [session?, erase]

variable {f' : Monster → Monster} {id : ObjectId}

theorem modifyInfo_monster :
    r.modifyInfo (.monster id) f = r.modifyMonster id fun m => { m with info := f m.info } := rfl

theorem getElem?_modifyMonster (id' : ObjectId) :
    (r.modifyMonster id f').monsters[id']? =
      if id' = id then r.monsters[id]?.map f' else r.monsters[id']? := by
  simp only [modifyMonster, ExtTreeMap.getElem?_modify, LawfulEqCmp.compare_eq_iff_eq]
  split
  · simp_all
  · simp_all [eq_comm]

theorem info?_modifyMonster :
    (r.modifyMonster id f').info? ref =
      if ref = .monster id then r.monsters[id]?.map (fun m => (f' m).info) else r.info? ref := by
  cases ref with
  | player id' =>
    rw [if_neg (by simp), info?_player, info?_player]
    rfl
  | monster id' =>
    rw [info?_monster, getElem?_modifyMonster]
    simp only [ObjectRef.monster.injEq]
    split
    · simp [Function.comp_def]
    · rw [info?_monster]

theorem modifyMonster_modifyMonster (g : Monster → Monster) :
    (r.modifyMonster id f').modifyMonster id g = r.modifyMonster id fun m => g (f' m) := by
  have h : ((r.monsters.modify id f').modify id g) = r.monsters.modify id fun m => g (f' m) := by
    refine ExtTreeMap.ext_getElem? fun k => ?_
    simp only [ExtTreeMap.getElem?_modify]
    split <;> simp [Function.comp_def]
  simp only [modifyMonster, h]

theorem modifyMonster_of_none (h : r.monsters[id]? = none) : r.modifyMonster id f' = r := by
  have hm : r.monsters.modify id f' = r.monsters := by
    refine ExtTreeMap.ext_getElem? fun k => ?_
    simp only [ExtTreeMap.getElem?_modify, LawfulEqCmp.compare_eq_iff_eq]
    split
    · simp_all
    · rfl
  simp only [modifyMonster, hm]

/-- An info that is changed to itself. -/
theorem modifyInfo_eq_self (h : r.info? ref = some info) (hf : f info = info) :
    r.modifyInfo ref f = r := by
  cases ref with
  | player id =>
    have hm : (r.players.modify id fun p => { p with info := f p.info }) = r.players := by
      refine ExtTreeMap.ext_getElem? fun k => ?_
      simp only [ExtTreeMap.getElem?_modify, LawfulEqCmp.compare_eq_iff_eq]
      split
      · rename_i hk
        rw [info?_player, hk] at h
        obtain ⟨p, hp, rfl⟩ := Option.map_eq_some_iff.1 h
        rw [hk, hp, Option.map_some, hf]
      · rfl
    simp only [modifyInfo, hm]
  | monster id =>
    have hm : (r.monsters.modify id fun m => { m with info := f m.info }) = r.monsters := by
      refine ExtTreeMap.ext_getElem? fun k => ?_
      simp only [ExtTreeMap.getElem?_modify, LawfulEqCmp.compare_eq_iff_eq]
      split
      · rename_i hk
        rw [info?_monster, hk] at h
        obtain ⟨m, hm, rfl⟩ := Option.map_eq_some_iff.1 h
        rw [hk, hm, Option.map_some, hf]
      · rfl
    simp only [modifyInfo, hm]

/-- What an erased object was changed to does not matter. -/
theorem erase_modifyInfo : (r.modifyInfo ref f).erase ref = r.erase ref := by
  cases ref with
  | player id =>
    have h : (r.players.modify id fun p => { p with info := f p.info }).erase id =
        r.players.erase id := by
      refine ExtTreeMap.ext_getElem? fun k => ?_
      simp only [ExtTreeMap.getElem?_erase, ExtTreeMap.getElem?_modify]
      split <;> simp_all
    simp only [erase, modifyInfo, h]
  | monster id =>
    have h : (r.monsters.modify id fun m => { m with info := f m.info }).erase id =
        r.monsters.erase id := by
      refine ExtTreeMap.ext_getElem? fun k => ?_
      simp only [ExtTreeMap.getElem?_erase, ExtTreeMap.getElem?_modify]
      split <;> simp_all
    simp only [erase, modifyInfo, h]

theorem info?_addPlayer {p : Player} :
    (r.addPlayer p).info? ref =
      if ref = .player p.info.objectid then some p.info else r.info? ref := by
  cases ref with
  | player id =>
    rw [info?_player, info?_player, addPlayer]
    simp only [ExtTreeMap.getElem?_insert, LawfulEqCmp.compare_eq_iff_eq,
      ObjectRef.player.injEq]
    split
    · simp_all
    · simp_all [eq_comm]
  | monster id =>
    rw [info?_monster, info?_monster, if_neg (by simp)]
    rfl

theorem session?_addPlayer {p : Player} (id : ObjectId) :
    (r.addPlayer p).session? id = if id = p.info.objectid then some p.session else r.session? id := by
  rw [session?, session?, addPlayer]
  simp only [ExtTreeMap.getElem?_insert, LawfulEqCmp.compare_eq_iff_eq]
  split
  · simp_all
  · simp_all [eq_comm]

theorem lock_eq_some {target : Option ObjectId} {p : Player}
    (h : r.lock target = some (id, p)) : target = some id ∧ r.players[id]? = some p := by
  simp only [lock, Option.bind_eq_some_iff, Option.map_eq_some_iff, Prod.mk.injEq] at h
  obtain ⟨_, rfl, _, hp, rfl, rfl⟩ := h
  exact ⟨rfl, hp⟩

end GameRoom

end Zelda.Server
