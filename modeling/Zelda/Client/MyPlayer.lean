import Zelda.Client.DevScene

/-!
# The player of the client

One frame of `MyPlayer`: the keys are read, the weapon may be switched, a step or an attack may
begin or end, and if anything was set the whole info is sent. What a frame gets from outside is a
`Frame`: the keys, which cells can be gone to, whether the object has arrived where it is drawn to,
and whether its animation has ended.

The dirty flag tells whether to send. All that a frame does to the object is setters one after the
other, and none of them changes the state without setting the flag (`Evolves`), so a frame that
sends nothing has left the state as it was (`state_tick_of_clean`). No message of the server changes
the state of the own player (`state_movedObject`).
-/

namespace Zelda.Client

open Protocol

/-- The keys that `InputManager` says are held (`w` to `d`, `spaceBar`) or were just pressed. -/
structure Keys where
  w : Bool := false
  s : Bool := false
  a : Bool := false
  d : Bool := false
  key1 : Bool := false
  key2 : Bool := false
  key3 : Bool := false
  spaceBar : Bool := false

/-- The direction of the keys that turn the player, in the order `TickInput` asks for them. -/
def Keys.dir (keys : Keys) : Option Int32 :=
  if keys.w then some dirUp
  else if keys.s then some dirDown
  else if keys.a then some dirLeft
  else if keys.d then some dirRight
  else none

/-- The weapon of the keys that switch it, in the order `TickInput` asks for them. -/
def Keys.weapon (keys : Keys) : Option WeaponType :=
  if keys.key1 then some .sword
  else if keys.key2 then some .bow
  else if keys.key3 then some .staff
  else none

/-- What a tick gets from outside. -/
structure Frame where
  keys : Keys := {}
  /-- `DevScene::CanGo` -/
  canGo : Server.Vec2Int → Bool := fun _ => false
  /-- The object is less than 1 away from where it is going to be drawn. -/
  arrived : Bool := false
  /-- `IsAnimationEnded` -/
  animationEnded : Bool := false

/-- What the end of an attack does to the scene. -/
inductive Release
  /-- The sword hits who is at this cell. -/
  | sword (front : Server.Vec2Int)
  | arrow
  | staff
  deriving DecidableEq, Repr

namespace GameObject

/-! ## The code of a frame -/

/-- `Player::SetWeaponType` -/
def setWeaponType (o : GameObject) (weaponType : WeaponType) : GameObject :=
  let baseStat := weaponType.baseStat
  let nextStat := { baseStat with hp := o.stat.hp, maxHp := o.stat.maxHp }
  let dirty := o.weaponType ≠ weaponType ∨ o.stat.attack ≠ nextStat.attack ∨
    o.stat.defence ≠ nextStat.defence ∨ o.stat.speed ≠ nextStat.speed
  let synced := syncInfoWithStat o.info nextStat
  { o with
    weaponType := weaponType
    stat := nextStat
    info := synced.1
    dirtyFlag := o.dirtyFlag || decide dirty || synced.2 }

/-- `MyPlayer::TickInput`, with `_keyPressed` -/
def tickInput (o : GameObject) (keys : Keys) : GameObject × Bool :=
  let keyPressed := keys.dir.isSome
  let o := keys.dir.elim o o.setDir
  let o := keys.weapon.elim o o.setWeaponType
  (if keys.spaceBar then o.setState skill else o, keyPressed)

/-- The entry of `deltaXY` for a direction, in `TryMove`. -/
def deltaXY (dir : Int32) : Option Server.Vec2Int :=
  if dir = dirUp then some ⟨0, -1⟩
  else if dir = dirDown then some ⟨0, 1⟩
  else if dir = dirLeft then some ⟨-1, 0⟩
  else if dir = dirRight then some ⟨1, 0⟩
  else none

/-- `MyPlayer::TryMove` -/
def tryMove (o : GameObject) (canGo : Server.Vec2Int → Bool) (keyPressed : Bool) : GameObject :=
  if keyPressed = false then o
  else
    match deltaXY o.info.dir with
    | none => o
    | some delta =>
      let nextPos := o.info.getCellPos + delta
      if canGo nextPos then (o.setCellPos nextPos).setState move else o

/-- `MyPlayer::TickIdle` -/
def tickIdle (o : GameObject) (frame : Frame) : GameObject :=
  let (o, keyPressed) := o.tickInput frame.keys
  o.tryMove frame.canGo keyPressed

/-- `Player::TickMove` -/
def tickMove (o : GameObject) (frame : Frame) : GameObject :=
  if frame.arrived then o.setState idle else o

/-- `Player::TickSkill`, with what it does to the scene. -/
def tickSkill (o : GameObject) (frame : Frame) : GameObject × Option Release :=
  match o.flipbook with
  | none => (o, none)
  | some _ =>
    if frame.animationEnded then
      let release :=
        match o.weaponType with
        | .sword => .sword o.info.getFrontCellPos
        | .bow => .arrow
        | .staff => .staff
      (o.setState idle, some release)
    else (o, none)

/-- `GameObject::Tick` -/
def tick (o : GameObject) (frame : Frame) : GameObject :=
  let o := { o with dirtyFlag := false }
  if o.info.state = idle then o.tickIdle frame
  else if o.info.state = move then o.tickMove frame
  else if o.info.state = skill then (o.tickSkill frame).1
  else o

/-- `MyPlayer::SyncToServer`; the packet is the one that `Make_C_Move` builds. -/
def syncToServer (o : GameObject) : Option CMove := if o.dirtyFlag then some ⟨o.info⟩ else none

/-- The hp that `OnDamaged` computes. -/
def nextHp (o attacker : GameObject) : Int32 :=
  let damage := attacker.stat.attack - o.stat.defence
  let damage := if damage ≤ 0 then 1 else damage
  let nextHp := o.stat.hp - damage
  let nextHp := if nextHp < 0 then 0 else nextHp
  if o.stat.maxHp < nextHp then o.stat.maxHp else nextHp

/-- `Creature::OnDamaged`, with whether it removes the creature from the scene. -/
def onDamaged (o attacker : GameObject) : GameObject × Bool :=
  if o.nextHp attacker = o.stat.hp then (o, false)
  else
    ({ o with
        stat := { o.stat with hp := o.nextHp attacker }
        info := o.info.setHp (o.nextHp attacker)
        dirtyFlag := true },
      o.nextHp attacker = 0)

end GameObject

/-- The player that `Handle_S_MyPlayer` makes of an info. -/
def ownPlayer (info : ObjectInfo) : GameObject :=
  { spawnObject .myPlayer info.getCellPos with info := info }.refreshStatFromInfo

theorem SceneManager.handleSMyPlayer_eq (m : SceneManager) (info : ObjectInfo) :
    m.handleSMyPlayer info =
      { scene := m.scene.addActor (ownPlayer info)
        myPlayer := some (ownPlayer info).info.objectid } := rfl

/-! ## What the setters do together -/

namespace GameObject

variable {o o' o'' : GameObject}

/-- What setters can do to an object: the state is the same as long as the dirty flag is clear. -/
structure Evolves (o o' : GameObject) : Prop where
  kind : o'.kind = o.kind
  objectid : o'.info.objectid = o.info.objectid
  dirty : o.dirtyFlag = true → o'.dirtyFlag = true
  state : o'.dirtyFlag = false → o'.info.state = o.info.state

theorem Evolves.refl (o : GameObject) : Evolves o o := ⟨rfl, rfl, id, fun _ => rfl⟩

theorem Evolves.trans (h : Evolves o o') (h' : Evolves o' o'') : Evolves o o'' where
  kind := h'.kind.trans h.kind
  objectid := h'.objectid.trans h.objectid
  dirty hd := h'.dirty (h.dirty hd)
  state hclean := by
    have hclean' : o'.dirtyFlag = false := by
      by_contra hd
      rw [h'.dirty (eq_true_of_ne_false hd)] at hclean
      cases hclean
    exact (h'.state hclean).trans (h.state hclean')

/-- A setter that sets the flag may do what it likes to the state. -/
theorem Evolves.of_dirty (hkind : o'.kind = o.kind) (hid : o'.info.objectid = o.info.objectid)
    (hd : o'.dirtyFlag = true) : Evolves o o' where
  kind := hkind
  objectid := hid
  dirty _ := hd
  state hclean := by
    rw [hd] at hclean
    cases hclean

theorem evolves_setState (o : GameObject) (state : Int32) : Evolves o (o.setState state) := by
  by_cases hsame : o.info.state = state
  · rw [setState, if_pos hsame]
    exact .refl o
  · refine .of_dirty (kind_setState o state) ?_ ?_
    · rw [info_setState]
      rfl
    · rw [setState, if_neg hsame]

theorem evolves_setDir (o : GameObject) (dir : Int32) : Evolves o (o.setDir dir) := by
  refine .of_dirty (kind_setDir o dir) ?_ rfl
  rw [info_setDir]
  rfl

theorem evolves_setCellPos (o : GameObject) (cellPos : Server.Vec2Int) :
    Evolves o (o.setCellPos cellPos) := .of_dirty rfl rfl rfl

theorem evolves_setWeaponType (o : GameObject) (weaponType : WeaponType) :
    Evolves o (o.setWeaponType weaponType) where
  kind := rfl
  objectid := rfl
  dirty hd := by simp [setWeaponType, hd]
  state _ := rfl

theorem evolves_onDamaged (o attacker : GameObject) : Evolves o (o.onDamaged attacker).1 := by
  unfold onDamaged
  split
  · exact .refl o
  · exact .of_dirty rfl rfl rfl

theorem evolves_elim {α : Type} {f : α → GameObject} (x : Option α) (hf : ∀ a, Evolves o (f a)) :
    Evolves o (x.elim o f) := by
  cases x with
  | none => exact .refl o
  | some a => exact hf a

theorem evolves_tickInput (o : GameObject) (keys : Keys) : Evolves o (o.tickInput keys).1 := by
  have hturn : Evolves o (keys.dir.elim o o.setDir) := evolves_elim _ o.evolves_setDir
  set turned := keys.dir.elim o o.setDir
  have harm : Evolves turned (keys.weapon.elim turned turned.setWeaponType) :=
    evolves_elim _ turned.evolves_setWeaponType
  refine (hturn.trans harm).trans ?_
  set armed := keys.weapon.elim turned turned.setWeaponType
  show Evolves armed (if keys.spaceBar then armed.setState skill else armed)
  split
  · exact evolves_setState _ _
  · exact .refl _

theorem evolves_tryMove (o : GameObject) (canGo : Server.Vec2Int → Bool) (keyPressed : Bool) :
    Evolves o (o.tryMove canGo keyPressed) := by
  unfold tryMove
  split
  · exact .refl o
  · split
    · exact .refl o
    · simp only
      split
      · exact (evolves_setCellPos o _).trans (evolves_setState _ _)
      · exact .refl o

theorem evolves_tickIdle (o : GameObject) (frame : Frame) : Evolves o (o.tickIdle frame) :=
  (evolves_tickInput o frame.keys).trans (evolves_tryMove _ _ _)

theorem evolves_tickMove (o : GameObject) (frame : Frame) : Evolves o (o.tickMove frame) := by
  unfold tickMove
  split
  · exact evolves_setState _ _
  · exact .refl o

theorem evolves_tickSkill (o : GameObject) (frame : Frame) : Evolves o (o.tickSkill frame).1 := by
  unfold tickSkill
  split
  · exact .refl o
  · split
    · exact evolves_setState _ _
    · exact .refl o

/-- A frame starts with the flag clear. -/
theorem evolves_tick (o : GameObject) (frame : Frame) :
    Evolves { o with dirtyFlag := false } (o.tick frame) := by
  unfold tick
  simp only
  split
  · exact evolves_tickIdle _ _
  · split
    · exact evolves_tickMove _ _
    · split
      · exact evolves_tickSkill _ _
      · exact .refl _

@[simp] theorem objectid_tick (o : GameObject) (frame : Frame) :
    (o.tick frame).info.objectid = o.info.objectid := (evolves_tick o frame).objectid

/-- **A frame that sends nothing has left the state as it was.** -/
theorem state_tick_of_clean {frame : Frame} (h : (o.tick frame).syncToServer = none) :
    (o.tick frame).info.state = o.info.state := by
  refine (evolves_tick o frame).state ?_
  unfold syncToServer at h
  split at h
  · cases h
  · rename_i hclean
    exact eq_false_of_ne_true hclean

theorem info_of_syncToServer {pkt : CMove} (h : o.syncToServer = some pkt) : pkt.info = o.info := by
  unfold syncToServer at h
  split at h
  · rw [← Option.some.inj h]
  · cases h

@[simp] theorem objectid_onDamaged (o attacker : GameObject) :
    (o.onDamaged attacker).1.info.objectid = o.info.objectid :=
  (evolves_onDamaged o attacker).objectid

@[simp] theorem state_onDamaged (o attacker : GameObject) :
    (o.onDamaged attacker).1.info.state = o.info.state := by
  unfold onDamaged
  split <;> rfl

@[simp] theorem getCellPos_onDamaged (o attacker : GameObject) :
    (o.onDamaged attacker).1.info.getCellPos = o.info.getCellPos := by
  unfold onDamaged
  split <;> rfl

end GameObject

namespace SceneManager

theorem state_takeStat (info : ObjectInfo) (o : GameObject) :
    (takeStat info o).info.state = o.info.state := by
  unfold takeStat
  split <;> rfl

/-- **No message of the server changes the state of the own player.** -/
theorem state_movedObject (info : ObjectInfo) (o : GameObject) :
    (movedObject true info o).info.state = o.info.state := state_takeStat info o

end SceneManager

end Zelda.Client
