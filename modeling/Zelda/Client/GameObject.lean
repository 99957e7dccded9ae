import Zelda.Server.GameObject

/-!
# Objects of the client's scene

`GameObject`, `Creature`, `Player`, `MyPlayer` and `Monster` of the client, as far as the packet
handlers reach: the info, the statistics and the weapon, with the flipbook that the setters choose.
Where an object is drawn, and which frame of its flipbook, is left out.
-/

namespace Zelda.Client

open Protocol

/-! ## Statistics -/

/-- `struct Stat` -/
structure Stat where
  hp : Int32 := 100
  maxHp : Int32 := 100
  attack : Int32 := 10
  defence : Int32 := 0
  speed : ℚ := 0
  deriving DecidableEq

/-- `enum class WeaponType` -/
inductive WeaponType
  | sword
  | bow
  | staff
  deriving DecidableEq, Repr

/-- `GetWeaponBaseStat`, from `kWeaponBaseStats` -/
def WeaponType.baseStat : WeaponType → Stat
  | .sword => ⟨100, 100, 15, 5, 200⟩
  | .bow => ⟨100, 100, 12, 3, 220⟩
  | .staff => ⟨100, 100, 18, 2, 180⟩

/-- `ResolveWeaponType` -/
def resolveWeaponType (attack : Int32) (current : WeaponType) : WeaponType :=
  ([.sword, .bow, .staff].find? fun type => type.baseStat.attack = attack).getD current

/-- `SyncInfoWithStat`, with what it returns: whether anything changed. -/
def syncInfoWithStat (info : ObjectInfo) (stat : Stat) : ObjectInfo × Bool :=
  let synced :=
    { info with hp := stat.hp, maxhp := stat.maxHp, attack := stat.attack, defence := stat.defence }
  (synced, synced ≠ info)

/-! ## Objects -/

/-- The class of an object. -/
inductive Kind
  | player
  | myPlayer
  | monster
  deriving DecidableEq, Repr

/-- `dynamic_cast<Player*>` gives an object. -/
def Kind.isPlayer : Kind → Bool
  | .player | .myPlayer => true
  | .monster => false

/-- The arrays of flipbooks, one flipbook for each direction. -/
inductive FlipbookArray
  | idle
  | move
  | attack
  | bow
  | staff
  deriving DecidableEq, Repr

/-- `class GameObject` with its subclasses. `flipbook` is the array and the index it was read at. An
array has four entries; what a read at another index gives is undefined, and a handler that makes
one has no result (`SceneManager.handlePacket?`). -/
structure GameObject where
  kind : Kind
  info : ObjectInfo := {}
  stat : Stat := {}
  weaponType : WeaponType := .sword
  flipbook : Option (FlipbookArray × Int32) := none
  dirtyFlag : Bool := false
  deriving DecidableEq

namespace GameObject

variable (o : GameObject)

/-- The array that a player attacks with. -/
def attackFlipbook : FlipbookArray :=
  match o.weaponType with
  | .sword => .attack
  | .bow => .bow
  | .staff => .staff

/-- `Player::UpdateAnimation` and `Monster::UpdateAnimation`, which read one of the arrays at
`info.dir()` without looking at it (`GameObject.reads`). -/
def updateAnimation : GameObject :=
  if o.kind.isPlayer then
    if o.info.state = idle then { o with flipbook := some (.idle, o.info.dir) }
    else if o.info.state = move then { o with flipbook := some (.move, o.info.dir) }
    else if o.info.state = skill then { o with flipbook := some (o.attackFlipbook, o.info.dir) }
    else o
  else { o with flipbook := some (.move, o.info.dir) }

/-- `GameObject::SetState` -/
def setState (state : Int32) : GameObject :=
  if o.info.state = state then o
  else { { o with info := o.info.setState state }.updateAnimation with dirtyFlag := true }

/-- `GameObject::SetDir` -/
def setDir (dir : Int32) : GameObject :=
  { { o with info := o.info.setDir dir }.updateAnimation with dirtyFlag := true }

/-- `GameObject::SetCellPos` -/
def setCellPos (cellPos : Server.Vec2Int) : GameObject :=
  { o with info := o.info.setCellPos cellPos, dirtyFlag := true }

/-- `Player::RefreshStatFromInfo` -/
def refreshStatFromInfo : GameObject :=
  let resolvedType := resolveWeaponType o.info.attack o.weaponType
  let baseStat := resolvedType.baseStat
  let maxHp := if o.info.maxhp ≤ 0 then baseStat.maxHp else o.info.maxhp
  let hp := if o.info.hp < 0 then 0 else o.info.hp
  let hp := if hp = 0 ∧ o.info.maxhp = 0 then maxHp else hp
  let hp := if maxHp < hp then maxHp else hp
  let attack := if o.info.attack = 0 then baseStat.attack else o.info.attack
  let defence := if o.info.defence = 0 then baseStat.defence else o.info.defence
  let stat := { hp := hp, maxHp := maxHp, attack := attack, defence := defence,
                speed := baseStat.speed }
  { o with weaponType := resolvedType, stat := stat, info := (syncInfoWithStat o.info stat).1 }

/-- The statistics of a creature after a message with this info, in `Handle_S_AddObject` and
`Handle_S_Move`. -/
def statFrom (stat : Stat) (info : ObjectInfo) : Stat :=
  let maxHp := if info.maxhp ≠ 0 then info.maxhp else stat.maxHp
  let hp := if info.hp < 0 then 0 else info.hp
  let hp := if 0 < maxHp ∧ maxHp < hp then maxHp else hp
  { stat with hp := hp, maxHp := maxHp, attack := info.attack, defence := info.defence }

/-- The constructors. -/
def new (kind : Kind) : GameObject :=
  if kind.isPlayer then
    let stat := WeaponType.sword.baseStat
    { kind := kind, stat := stat, info := (syncInfoWithStat {} stat).1 }
  else { kind := kind }

/-- `BeginPlay`: that of `GameObject`, then that of `Player` or `Monster`. -/
def beginPlay : GameObject :=
  (((o.setState move).setState idle).setState move).setState idle

/-! ## What the setters keep -/

@[simp] theorem kind_updateAnimation : o.updateAnimation.kind = o.kind := by
  unfold updateAnimation
  split_ifs <;> rfl

@[simp] theorem info_updateAnimation : o.updateAnimation.info = o.info := by
  unfold updateAnimation
  split_ifs <;> rfl

@[simp] theorem kind_setState (state : Int32) : (o.setState state).kind = o.kind := by
  unfold setState
  split
  · rfl
  · exact kind_updateAnimation _

@[simp] theorem info_setState (state : Int32) :
    (o.setState state).info = o.info.setState state := by
  unfold setState
  split
  · rename_i hstate
    rw [← hstate]
    rfl
  · exact info_updateAnimation _

theorem dirtyFlag_setState (state : Int32) :
    (o.setState state).dirtyFlag = (o.dirtyFlag || decide (o.info.state ≠ state)) := by
  by_cases hsame : o.info.state = state
  · simp [setState, hsame]
  · simp [setState, hsame]

@[simp] theorem kind_setDir (dir : Int32) : (o.setDir dir).kind = o.kind := kind_updateAnimation _

@[simp] theorem info_setDir (dir : Int32) : (o.setDir dir).info = o.info.setDir dir :=
  info_updateAnimation _

@[simp] theorem kind_setCellPos (cellPos : Server.Vec2Int) : (o.setCellPos cellPos).kind = o.kind :=
  rfl

@[simp] theorem info_setCellPos (cellPos : Server.Vec2Int) :
    (o.setCellPos cellPos).info = o.info.setCellPos cellPos := rfl

@[simp] theorem kind_refreshStatFromInfo : o.refreshStatFromInfo.kind = o.kind := by
  rw [refreshStatFromInfo]

@[simp] theorem kind_new (kind : Kind) : (new kind).kind = kind := by
  unfold new
  split <;> rfl

@[simp] theorem kind_beginPlay : o.beginPlay.kind = o.kind := by
  simp only [beginPlay, kind_setState]

/-- An info whose hp is between 1 and the maximum and whose attack and defence are not zero is taken
over as it is. -/
theorem info_refreshStatFromInfo (hhp : ¬ o.info.hp ≤ 0) (hle : o.info.hp ≤ o.info.maxhp)
    (hattack : o.info.attack ≠ 0) (hdefence : o.info.defence ≠ 0) :
    o.refreshStatFromInfo.info = o.info := by
  have hmax : ¬ o.info.maxhp ≤ 0 := fun h => hhp (Int32.le_trans hle h)
  have hneg : ¬ o.info.hp < 0 := fun h => hhp (Int32.le_of_lt h)
  have hzero : ¬ (o.info.hp = 0 ∧ o.info.maxhp = 0) := by
    rintro ⟨h, -⟩
    exact hhp (by rw [h]; exact Int32.le_refl 0)
  have hcut : ¬ o.info.maxhp < o.info.hp := fun h => absurd hle (Int32.not_le.2 h)
  simp only [refreshStatFromInfo, syncInfoWithStat, if_neg hmax, if_neg hneg, if_neg hzero,
    if_neg hcut, if_neg hattack, if_neg hdefence]

end GameObject

end Zelda.Client
