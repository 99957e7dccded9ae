import Zelda.Server.Handlers

/-!
# Monsters and the update of the room

`Monster::Update` with its three states, and `GameRoom::Update`, which updates every monster once.
`now` is what the monster reads from `GetTickCount64`, at most once in an update. `fuel` bounds the
loops of `FindPath`; a state reached with some bound is reached with every larger one.
-/

namespace Zelda.Server

open Protocol

/-! ## Setters -/

section

variable (P : Platform)

/-- `GameObject::BroadcastMove` -/
def broadcastMove (ref : ObjectRef) (w : World) : Result :=
  match w.room.object? ref with
  | none => .ok w
  | some o => if o.room then broadcast P (.sMove o.info) w else .ok w

/-- `GameObject::SetState` -/
def setState (ref : ObjectRef) (state : Int32) (announce : Bool) (w : World) : Result :=
  match w.room.info? ref with
  | none => .ok w
  | some info =>
    if info.state = state then .ok w
    else
      let w := w.modifyInfo ref (·.setState state)
      if announce then broadcastMove P ref w else .ok w

end

/-- `GameObject::SetDir`; no caller asks for the broadcast. -/
def World.setDir (w : World) (ref : ObjectRef) (dir : Int32) : World :=
  w.modifyInfo ref (·.setDir dir)

/-- `GameObject::SetCellPos`; no caller asks for the broadcast. -/
def World.setCellPos (w : World) (ref : ObjectRef) (cellPos : Vec2Int) : World :=
  w.modifyInfo ref (·.setCellPos cellPos)

/-- `_waitUntil = now + 1000` -/
def World.wait (w : World) (id : ObjectId) (now : UInt64) : World :=
  w.modifyMonster id ({ · with waitUntil := now + 1000 })

/-- `_target = …` -/
def World.setTarget (w : World) (id : ObjectId) (target : Option ObjectId) : World :=
  w.modifyMonster id ({ · with target := target })

/-! ## `Monster::Update` -/

variable (P : Platform) (fuel : ℕ) (now : UInt64)

/-- The part of `UpdateIdle` that approaches a target, by a path that `FindPath` gave. -/
def followPath (id : ObjectId) (info : ObjectInfo) (path : List Vec2Int) (w : World) : Result :=
  match path with
  | _ :: nextPos :: _ =>
    if w.room.canGo nextPos then
      let w := w.setDir (.monster id) (info.getLookAtDir nextPos)
      let w := w.setCellPos (.monster id) nextPos
      let w := w.wait id now
      setState P (.monster id) move true w
    else .ok w
  | [pos] => .ok (w.setCellPos (.monster id) pos)
  -- `FindPath` never returns true with an empty path
  | [] => .ok w

/-- `Monster::UpdateIdle` -/
def updateIdle (id : ObjectId) (w : World) : Result :=
  match w.room.monsters[id]? with
  | none => .ok w
  | some monster =>
    if monster.room = false then .ok w
    else
      let pos := monster.info.getCellPos
      let target :=
        if (w.room.lock monster.target).isNone then w.room.findClosestPlayer pos
        else monster.target
      let w := w.setTarget id target
      match w.room.lock target with
      | none => .ok w
      | some (_, player) =>
        let dest := player.info.getCellPos
        if (dest - pos).manhattan = 1 then do
          let w := w.setDir (.monster id) (monster.info.getLookAtDir dest)
          let w ← setState P (.monster id) skill true w
          .ok (w.wait id now)
        else
          match findPath P.pq w.room pos dest fuel with
          | none => .error .outOfFuel
          | some none => .ok w
          | some (some path) => followPath P now id monster.info path w

/-- `Monster::UpdateMove` -/
def updateMove (id : ObjectId) (w : World) : Result :=
  match w.room.monsters[id]? with
  | none => .ok w
  | some monster =>
    if now < monster.waitUntil then .ok w else setState P (.monster id) idle false w

/-- The part of `UpdateSkill` that hits the target. A victim that was removed died of it. -/
def strike (id : ObjectId) (monster : Monster) (w : World) : Result :=
  match w.room.lock monster.target with
  | none => .ok (w.setTarget id none)
  | some (targetId, target) =>
    if target.room ≠ monster.room then .ok (w.setTarget id none)
    else if (target.info.getCellPos - monster.info.getCellPos).manhattan = 1 then
      match w.room.findObject monster.info.objectid with
      | none => .ok w
      | some self => do
        let victim : ObjectRef := .player targetId
        let w ← applyDamage P self victim w
        if (w.room.info? victim).all (·.hp ≤ 0) then .ok (w.setTarget id none) else .ok w
    else .ok w

/-- `Monster::UpdateSkill` -/
def updateSkill (id : ObjectId) (w : World) : Result :=
  match w.room.monsters[id]? with
  | none => .ok w
  | some monster =>
    if now < monster.waitUntil then .ok w
    else do
      let w ← setState P (.monster id) idle false w
      let w ← (if monster.room then strike P id monster w else .ok w)
      broadcastMove P (.monster id) w

/-- `Monster::Update` -/
def updateMonster (id : ObjectId) (w : World) : Result :=
  match w.room.info? (.monster id) with
  | none => .ok w
  | some info =>
    if info.state = idle then updateIdle P fuel now id w
    else if info.state = move then updateMove P now id w
    else if info.state = skill then updateSkill P now id w
    else .ok w

/-! ## `GameRoom::Update` -/

/-- The loop over `_monsters`, from the keys it started with; see `Reentrant.broadcastFrom`. -/
def updateFrom (clock : ObjectId → UInt64) : List ObjectId → World → Result
  | [], w => .ok w
  | id :: ids, w =>
    if id ∈ w.room.monsters then do
      let w ← updateMonster P fuel (clock id) id w
      if id ∈ w.room.monsters then updateFrom clock ids w else .error .erasedEntry
    else updateFrom clock ids w

/-- `GameRoom::Update`. Updating a player does nothing. -/
def update (clock : ObjectId → UInt64) (w : World) : Result :=
  updateFrom P fuel clock w.room.monsters.keys w

/-! ## `GameRoom::Init` -/

/-- The monster `Init` creates. -/
def firstMonster : Monster :=
  let monster := createMonster 1
  { monster with info := monster.info.setCellPos ⟨8, 8⟩ }

/-- The server after `GameRoom::Init`, with the tilemap that `LoadFile` left. Nobody is there to be
told of the monster. -/
def World.init (tilemap : Tilemap) : World where
  room := { ({} : GameRoom).addMonster firstMonster with tilemap := tilemap }
  idGenerator := 2

end Zelda.Server
