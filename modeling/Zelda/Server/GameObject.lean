import Zelda.Protocol
import Zelda.Server.Tilemap

/-!
# Objects of the room

`GameObject` with its two subclasses. A `shared_ptr` to an object is the object's id: the objects
themselves live in the maps of the room. The `room` pointer of an object is null or the one room,
so it is a `Bool`.
-/

namespace Zelda.Server

open Protocol

/-- Sessions are told apart by a number. -/
abbrev SessionId := ℕ

/-- `class GameObject` -/
structure GameObject where
  info : ObjectInfo
  room : Bool := false
  deriving DecidableEq, Repr

/-- `class Player` -/
structure Player extends GameObject where
  session : SessionId
  deriving DecidableEq, Repr

/-- `class Monster`; `target` is the id of the player that `_target` points to. -/
structure Monster extends GameObject where
  waitUntil : UInt64 := 0
  target : Option ObjectId := none
  deriving DecidableEq, Repr

/-! ## Weapon statistics -/

/-- `struct WeaponStatData` -/
structure WeaponStatData where
  hp : Int32
  maxHp : Int32
  attack : Int32
  defence : Int32
  deriving DecidableEq, Repr

/-- `kSwordStat` -/
def swordStat : WeaponStatData := ⟨100, 100, 15, 5⟩

/-- `kBowStat` -/
def bowStat : WeaponStatData := ⟨100, 100, 12, 3⟩

/-- `kStaffStat` -/
def staffStat : WeaponStatData := ⟨100, 100, 18, 2⟩

/-- `ResolveWeaponStat` -/
def resolveWeaponStat (attack : Int32) : WeaponStatData :=
  if attack = bowStat.attack then bowStat
  else if attack = staffStat.attack then staffStat
  else swordStat

theorem resolveWeaponStat_cases (attack : Int32) :
    resolveWeaponStat attack = swordStat ∨ resolveWeaponStat attack = bowStat ∨
      resolveWeaponStat attack = staffStat := by
  unfold resolveWeaponStat
  split
  · exact .inr (.inl rfl)
  · split
    · exact .inr (.inr rfl)
    · exact .inl rfl

end Zelda.Server

namespace Zelda.Protocol.ObjectInfo

open Zelda.Server

variable (info : ObjectInfo)

/-- `ApplyWeaponStat` -/
def applyWeaponStat (stat : WeaponStatData) : ObjectInfo :=
  { info with hp := stat.hp, maxhp := stat.maxHp, attack := stat.attack, defence := stat.defence }

/-- `SyncWeaponTemplate` -/
def syncWeaponTemplate (stat : WeaponStatData) : ObjectInfo :=
  { info with
    maxhp := if info.maxhp ≤ 0 then stat.maxHp else info.maxhp
    attack := stat.attack
    defence := stat.defence }

/-! ## Cells -/

/-- `GameObject::GetCellPos` -/
def getCellPos : Vec2Int := ⟨info.posx, info.posy⟩

/-- `GameObject::SetCellPos`, without the broadcast. -/
def setCellPos (cellPos : Vec2Int) : ObjectInfo :=
  { info with posx := cellPos.x, posy := cellPos.y }

/-- `GameObject::GetLookAtDir` -/
def getLookAtDir (cellPos : Vec2Int) : Int32 :=
  let dir := cellPos - info.getCellPos
  if 0 < dir.x then dirRight
  else if dir.x < 0 then dirLeft
  else if 0 < dir.y then dirDown
  else dirUp

/-- `GameObject::GetFrontCellPos` -/
def getFrontCellPos : Vec2Int :=
  if info.dir = dirDown then info.getCellPos + ⟨0, 1⟩
  else if info.dir = dirLeft then info.getCellPos + ⟨-1, 0⟩
  else if info.dir = dirRight then info.getCellPos + ⟨1, 0⟩
  else if info.dir = dirUp then info.getCellPos + ⟨0, -1⟩
  else info.getCellPos

theorem isDir_getLookAtDir (cellPos : Vec2Int) : IsDir (info.getLookAtDir cellPos) := by
  unfold getLookAtDir
  simp only
  split_ifs <;> decide

@[simp] theorem getCellPos_setCellPos (cellPos : Vec2Int) :
    (info.setCellPos cellPos).getCellPos = cellPos := rfl

@[simp] theorem setCellPos_getCellPos : info.setCellPos info.getCellPos = info := rfl

end Zelda.Protocol.ObjectInfo

namespace Zelda.Server

open Protocol

/-! ## Creation -/

/-- `GameObject::CreatePlayer` and the assignments of `EnterRoom` that follow it. -/
def createPlayer (id : ObjectId) (session : SessionId) : Player where
  info := { objectid := id, objecttype := objectTypePlayer }
  session := session

/-- `GameObject::CreateMonster`, with the statistics `Monster::Monster` sets. -/
def createMonster (id : ObjectId) : Monster where
  info :=
    { objectid := id
      objecttype := objectTypeMonster
      name := "MonsterName"
      hp := 50
      maxhp := 50
      attack := 5
      defence := 0 }

end Zelda.Server
