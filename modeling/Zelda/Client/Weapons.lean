import Zelda.Client.MyPlayer

/-!
# The weapon of the client's player

The weapon and the statistics of the client's player agree (`Armed`), whatever a frame, a message of
the server or a hit does to it, as long as the messages carry the statistics of some weapon
(`Carries`). A frame changes the weapon only where it selects one (`weaponType_tick`), and it sends
the info if it does something else, or selects another weapon than the player has
(`dirtyFlag_tick`). A message of the server replaces the weapon (`weaponType_movedObject`).
-/

namespace Zelda.Client

open Protocol

/-- The info has the attack and the defence of a weapon. -/
structure Carries (info : ObjectInfo) (weaponType : WeaponType) : Prop where
  attack : info.attack = weaponType.baseStat.attack
  defence : info.defence = weaponType.baseStat.defence

/-- The weapons differ in their attack, so the attack says which it is. -/
theorem resolveWeaponType_attack (weaponType current : WeaponType) :
    resolveWeaponType weaponType.baseStat.attack current = weaponType := by
  cases weaponType <;> rfl

/-- The server knows the same weapons. -/
theorem resolveWeaponStat_attack (weaponType : WeaponType) :
    (Server.resolveWeaponStat weaponType.baseStat.attack).attack = weaponType.baseStat.attack ∧
    (Server.resolveWeaponStat weaponType.baseStat.attack).defence =
      weaponType.baseStat.defence := by
  cases weaponType <;> decide

theorem Carries.setHp {info : ObjectInfo} {x : WeaponType} (h : Carries info x) (hp : Int32) :
    Carries (info.setHp hp) x := ⟨h.attack, h.defence⟩

namespace GameObject

variable {o o' o'' : GameObject} {frame : Frame}

/-! ## Weapon and statistics -/

/-- The statistics are those of the weapon, and the info has them. -/
structure Armed (o : GameObject) : Prop where
  stat : o.stat = { o.weaponType.baseStat with hp := o.stat.hp, maxHp := o.stat.maxHp }
  hp : o.info.hp = o.stat.hp
  maxhp : o.info.maxhp = o.stat.maxHp
  carries : Carries o.info o.weaponType

theorem Armed.baseStat (h : o.Armed) : o.stat.attack = o.weaponType.baseStat.attack ∧
    o.stat.defence = o.weaponType.baseStat.defence ∧
    o.stat.speed = o.weaponType.baseStat.speed := by
  rw [h.stat]
  exact ⟨rfl, rfl, rfl⟩

/-- The second object has the weapon and the statistics of the first. -/
structure SameArms (o o' : GameObject) : Prop where
  weaponType : o'.weaponType = o.weaponType
  stat : o'.stat = o.stat
  hp : o'.info.hp = o.info.hp
  maxhp : o'.info.maxhp = o.info.maxhp
  attack : o'.info.attack = o.info.attack
  defence : o'.info.defence = o.info.defence

theorem SameArms.refl (o : GameObject) : SameArms o o := ⟨rfl, rfl, rfl, rfl, rfl, rfl⟩

theorem SameArms.trans (h : SameArms o o') (h' : SameArms o' o'') : SameArms o o'' where
  weaponType := h'.weaponType.trans h.weaponType
  stat := h'.stat.trans h.stat
  hp := h'.hp.trans h.hp
  maxhp := h'.maxhp.trans h.maxhp
  attack := h'.attack.trans h.attack
  defence := h'.defence.trans h.defence

theorem SameArms.armed (h : SameArms o o') (ho : o.Armed) : o'.Armed where
  stat := by rw [h.stat, h.weaponType]; exact ho.stat
  hp := by rw [h.hp, h.stat]; exact ho.hp
  maxhp := by rw [h.maxhp, h.stat]; exact ho.maxhp
  carries := by
    rw [h.weaponType]
    exact ⟨h.attack.trans ho.carries.attack, h.defence.trans ho.carries.defence⟩

theorem sameArms_updateAnimation (o : GameObject) : SameArms o o.updateAnimation := by
  unfold updateAnimation
  split_ifs <;> constructor <;> rfl

theorem sameArms_setState (o : GameObject) (state : Int32) : SameArms o (o.setState state) := by
  unfold setState
  split
  · exact .refl o
  · have h := sameArms_updateAnimation { o with info := o.info.setState state }
    exact ⟨h.weaponType, h.stat, h.hp, h.maxhp, h.attack, h.defence⟩

theorem sameArms_setDir (o : GameObject) (dir : Int32) : SameArms o (o.setDir dir) := by
  have h := sameArms_updateAnimation { o with info := o.info.setDir dir }
  exact ⟨h.weaponType, h.stat, h.hp, h.maxhp, h.attack, h.defence⟩

theorem sameArms_setCellPos (o : GameObject) (cellPos : Server.Vec2Int) :
    SameArms o (o.setCellPos cellPos) := ⟨rfl, rfl, rfl, rfl, rfl, rfl⟩

theorem SameArms.setWeaponType (h : SameArms o o') (x : WeaponType) :
    SameArms (o.setWeaponType x) (o'.setWeaponType x) := by
  constructor
  · rfl
  all_goals simp only [GameObject.setWeaponType, syncInfoWithStat, h.stat]

theorem armed_setWeaponType (o : GameObject) (x : WeaponType) : (o.setWeaponType x).Armed :=
  ⟨rfl, rfl, rfl, ⟨rfl, rfl⟩⟩

/-- Selecting the weapon that the player has sends nothing. -/
theorem Armed.dirtyFlag_setWeaponType (h : o.Armed) (x : WeaponType) :
    (o.setWeaponType x).dirtyFlag = (o.dirtyFlag || decide (x ≠ o.weaponType)) := by
  obtain ⟨hattack, hdefence, hspeed⟩ := h.baseStat
  by_cases hx : x = o.weaponType
  · have hstat : { o.weaponType.baseStat with hp := o.stat.hp, maxHp := o.stat.maxHp } = o.stat :=
      h.stat.symm
    have hsync : syncInfoWithStat o.info o.stat = (o.info, false) := by
      have hinfo : (syncInfoWithStat o.info o.stat).1 = o.info := by
        rw [syncInfoWithStat, ← h.hp, ← h.maxhp, hattack, ← h.carries.attack, hdefence,
          ← h.carries.defence]
      exact Prod.ext hinfo (decide_eq_false (not_not.2 hinfo))
    subst hx
    simp only [GameObject.setWeaponType, hstat, hsync]
    simp [hattack, hdefence, hspeed]
  · have hne : o.weaponType ≠ x := fun h => hx h.symm
    simp only [GameObject.setWeaponType]
    simp [hx, hne]

/-! ## Frames -/

/-- The weapon that a frame selects: only an idle player looks at the keys. -/
def selects (o : GameObject) (frame : Frame) : Option WeaponType :=
  if o.info.state = idle then frame.keys.weapon else none

/-- The frame turns the player or begins an attack, or it ends a step or an attack. -/
def Acts (o : GameObject) (frame : Frame) : Prop :=
  (o.info.state = idle ∧ (frame.keys.dir.isSome = true ∨ frame.keys.spaceBar = true)) ∨
    (o.info.state = move ∧ frame.arrived = true) ∨
    (o.info.state = skill ∧ o.flipbook.isSome = true ∧ frame.animationEnded = true)

instance : Decidable (o.Acts frame) := inferInstanceAs (Decidable (_ ∨ _))

/-- The player after what a frame selects. -/
def select (o : GameObject) (frame : Frame) : GameObject := (o.selects frame).elim o o.setWeaponType

theorem sameArms_tryMove (o : GameObject) (canGo : Server.Vec2Int → Bool) (keyPressed : Bool) :
    SameArms o (o.tryMove canGo keyPressed) := by
  unfold tryMove
  split
  · exact .refl o
  · split
    · exact .refl o
    · simp only
      split
      · exact (sameArms_setCellPos o _).trans (sameArms_setState _ _)
      · exact .refl o

theorem SameArms.elim (h : SameArms o o') (x : Option WeaponType) :
    SameArms (x.elim o o.setWeaponType) (x.elim o' o'.setWeaponType) := by
  cases x with
  | none => exact h
  | some x => exact h.setWeaponType x

theorem sameArms_tickInput (o : GameObject) (keys : Keys) :
    SameArms (keys.weapon.elim o o.setWeaponType) (o.tickInput keys).1 := by
  have hturn : SameArms o (keys.dir.elim o o.setDir) := by
    cases keys.dir with
    | none => exact .refl o
    | some dir => exact sameArms_setDir o dir
  refine (hturn.elim keys.weapon).trans ?_
  set turned := keys.dir.elim o o.setDir
  set armed := keys.weapon.elim turned turned.setWeaponType
  show SameArms armed (if keys.spaceBar then armed.setState skill else armed)
  split
  · exact sameArms_setState _ _
  · exact .refl _

theorem sameArms_tickMove (o : GameObject) (frame : Frame) : SameArms o (o.tickMove frame) := by
  unfold tickMove
  split
  · exact sameArms_setState _ _
  · exact .refl o

theorem sameArms_tickSkill (o : GameObject) (frame : Frame) :
    SameArms o (o.tickSkill frame).1 := by
  unfold tickSkill
  split
  · exact .refl o
  · split
    · exact sameArms_setState _ _
    · exact .refl o

/-- Nothing in a frame changes the weapon and the statistics but what it selects. -/
theorem sameArms_tick (o : GameObject) (frame : Frame) :
    SameArms (o.select frame) (o.tick frame) := by
  have hclear : SameArms o { o with dirtyFlag := false } := ⟨rfl, rfl, rfl, rfl, rfl, rfl⟩
  unfold tick select selects
  simp only
  split
  · exact (hclear.elim _).trans ((sameArms_tickInput _ _).trans (sameArms_tryMove _ _ _))
  · split
    · exact hclear.trans (sameArms_tickMove _ _)
    · split
      · exact hclear.trans (sameArms_tickSkill _ _)
      · exact hclear

/-- **A frame changes the weapon to what it selects.** -/
theorem weaponType_tick (o : GameObject) (frame : Frame) :
    (o.tick frame).weaponType = (o.selects frame).getD o.weaponType := by
  rw [(sameArms_tick o frame).weaponType, select]
  cases o.selects frame <;> rfl

theorem Armed.tick (h : o.Armed) (frame : Frame) : (o.tick frame).Armed := by
  refine (sameArms_tick o frame).armed ?_
  rw [select]
  cases o.selects frame with
  | none => exact h
  | some x => exact armed_setWeaponType o x

/-! ## What is sent -/

/-- What the keys set, for a player that stands and has sent everything. -/
theorem Armed.dirtyFlag_tickInput (h : o.Armed) (hclean : o.dirtyFlag = false)
    (hidle : o.info.state = idle) (keys : Keys) : (o.tickInput keys).1.dirtyFlag = true ↔
      (keys.dir.isSome = true ∨ keys.spaceBar = true) ∨
        ∃ x, keys.weapon = some x ∧ x ≠ o.weaponType := by
  have hturn : ∃ turned, keys.dir.elim o o.setDir = turned ∧ SameArms o turned ∧
      turned.dirtyFlag = keys.dir.isSome ∧ turned.info.state = idle := by
    cases keys.dir with
    | none => exact ⟨o, rfl, .refl o, hclean, hidle⟩
    | some dir =>
      refine ⟨o.setDir dir, rfl, sameArms_setDir o dir, rfl, ?_⟩
      rw [info_setDir]
      exact hidle
  obtain ⟨turned, hturned, harms, hdirty, hstate⟩ := hturn
  have harm : ∃ armed, keys.weapon.elim turned turned.setWeaponType = armed ∧
      (armed.dirtyFlag = true ↔
        keys.dir.isSome = true ∨ ∃ x, keys.weapon = some x ∧ x ≠ o.weaponType) ∧
      armed.info.state = idle := by
    cases keys.weapon with
    | none => exact ⟨turned, rfl, by simp [hdirty], hstate⟩
    | some x =>
      refine ⟨turned.setWeaponType x, rfl, ?_, hstate⟩
      rw [(harms.armed h).dirtyFlag_setWeaponType, hdirty, harms.weaponType]
      simp
  obtain ⟨armed, harmed, hsent, hstate'⟩ := harm
  have hinput : (o.tickInput keys).1 = if keys.spaceBar then armed.setState skill else armed := by
    rw [tickInput, hturned, harmed]
  have hne : armed.info.state ≠ skill := by
    rw [hstate']
    decide
  rw [hinput]
  split
  · rename_i hspace
    simp [dirtyFlag_setState, hne, hspace]
  · rename_i hspace
    rw [hsent]
    simp [hspace]

/-- A step is tried only by a player that has turned. -/
theorem dirtyFlag_tryMove (canGo : Server.Vec2Int → Bool) {keyPressed : Bool}
    (h : keyPressed = true → o.dirtyFlag = true) :
    (o.tryMove canGo keyPressed).dirtyFlag = o.dirtyFlag := by
  cases keyPressed with
  | false => rfl
  | true => rw [(evolves_tryMove o canGo true).dirty (h rfl), h rfl]

/-- **A frame sends the info if the player acts, or selects a weapon that it does not have.** -/
theorem Armed.dirtyFlag_tick (h : o.Armed) (frame : Frame) : (o.tick frame).dirtyFlag = true ↔
    o.Acts frame ∨ ∃ x, o.selects frame = some x ∧ x ≠ o.weaponType := by
  set o₀ : GameObject := { o with dirtyFlag := false } with ho₀
  have h₀ : o₀.Armed := ⟨h.stat, h.hp, h.maxhp, h.carries⟩
  by_cases hidle : o.info.state = idle
  · have hinput := h₀.dirtyFlag_tickInput rfl hidle frame.keys
    have hkey : (o₀.tickInput frame.keys).2 = true →
        (o₀.tickInput frame.keys).1.dirtyFlag = true :=
      fun hdir => hinput.2 (.inl (.inl hdir))
    have htick : o.tick frame = o₀.tickIdle frame := if_pos hidle
    have hmove : move ≠ idle := by decide
    have hskill : skill ≠ idle := by decide
    rw [htick, tickIdle, dirtyFlag_tryMove _ hkey, hinput]
    simp [Acts, selects, hidle, hmove.symm, hskill.symm, ho₀]
  · have hselects : o.selects frame = none := if_neg hidle
    by_cases hmove : o.info.state = move
    · have htick : o.tick frame = o₀.tickMove frame := (if_neg hidle).trans (if_pos hmove)
      have hne : move ≠ idle := by decide
      have hskill : move ≠ skill := by decide
      have hstate : o₀.info.state ≠ idle := hidle
      rw [htick, tickMove, hselects]
      by_cases harrived : frame.arrived = true
      · simp [Acts, hmove, hne, hskill, harrived, dirtyFlag_setState, ho₀]
      · simp [Acts, hmove, hne, hskill, harrived, ho₀]
    · by_cases hskill : o.info.state = skill
      · have htick : o.tick frame = (o₀.tickSkill frame).1 :=
          (if_neg hidle).trans ((if_neg hmove).trans (if_pos hskill))
        have hne : skill ≠ idle := by decide
        have hne' : skill ≠ move := by decide
        rw [htick, tickSkill, hselects]
        cases hflipbook : o.flipbook with
        | none => simp [Acts, hskill, hne, hne', hflipbook, ho₀]
        | some flipbook =>
          by_cases hended : frame.animationEnded = true
          · simp [Acts, hskill, hne, hne', hflipbook, hended, dirtyFlag_setState, ho₀]
          · simp [Acts, hskill, hne, hne', hflipbook, hended, ho₀]
      · have htick : o.tick frame = o₀ :=
          (if_neg hidle).trans ((if_neg hmove).trans (if_neg hskill))
        rw [htick, hselects]
        simp [Acts, hidle, hmove, hskill, ho₀]

/-! ## Messages and hits -/

theorem armed_refreshStatFromInfo {x : WeaponType} (hx : Carries o.info x) :
    o.refreshStatFromInfo.Armed ∧ o.refreshStatFromInfo.weaponType = x := by
  have hresolve : resolveWeaponType o.info.attack o.weaponType = x := by
    rw [hx.attack]
    exact resolveWeaponType_attack x o.weaponType
  have hattack : o.info.attack ≠ 0 := by
    rw [hx.attack]
    cases x <;> decide
  have hdefence : o.info.defence ≠ 0 := by
    rw [hx.defence]
    cases x <;> decide
  simp only [refreshStatFromInfo, hresolve, if_neg hattack, if_neg hdefence, syncInfoWithStat]
  refine ⟨⟨?_, rfl, rfl, ⟨hx.attack, hx.defence⟩⟩, trivial⟩
  rw [hx.attack, hx.defence]

theorem Armed.onDamaged (h : o.Armed) (attacker : GameObject) : (o.onDamaged attacker).1.Armed := by
  unfold GameObject.onDamaged
  split
  · exact h
  · refine ⟨?_, rfl, h.maxhp, h.carries.setHp _⟩
    simp only
    rw [h.stat]

theorem weaponType_onDamaged (o attacker : GameObject) :
    (o.onDamaged attacker).1.weaponType = o.weaponType := by
  unfold onDamaged
  split <;> rfl

end GameObject

/-- **A message of the server replaces the weapon of the own player**, whether or not it is older
than the weapon. -/
theorem SceneManager.weaponType_movedObject {o : GameObject} (hkind : o.kind.isPlayer = true)
    {info : ObjectInfo} {x : WeaponType} (hx : Carries info x) :
    (movedObject true info o).Armed ∧ (movedObject true info o).weaponType = x := by
  have hmoved : movedObject true info o = (writeStat info o).refreshStatFromInfo := by
    simp only [movedObject, if_true, takeStat, if_pos hkind]
  rw [hmoved]
  exact GameObject.armed_refreshStatFromInfo ⟨hx.attack, hx.defence⟩

end Zelda.Client
