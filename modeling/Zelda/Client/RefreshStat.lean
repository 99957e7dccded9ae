import Zelda.Client.Weapons

/-!
# `RefreshStatFromInfo` normalises

Whatever values a message has written to the info of a player, `Player::RefreshStatFromInfo` makes
statistics of them that are in order (`InOrder`) and writes them back. A player whose statistics are
in order is a fixed point of it (`InOrder.refreshStatFromInfo`).

Main result: `refreshStatFromInfo_normalises`.
-/

namespace Zelda.Client

open Protocol

variable {o : GameObject} {attack : Int32} {x : WeaponType}

/-- Without a weapon that has this attack, the current one is kept. -/
theorem resolveWeaponType_cases (attack : Int32) (current : WeaponType) :
    (resolveWeaponType attack current).baseStat.attack = attack ∨
      resolveWeaponType attack current = current ∧ ∀ y : WeaponType, y.baseStat.attack ≠ attack := by
  unfold resolveWeaponType
  cases hfind : [WeaponType.sword, .bow, .staff].find? fun type => type.baseStat.attack = attack with
  | some type =>
    refine .inl ?_
    simpa using List.find?_some hfind
  | none =>
    refine .inr ⟨rfl, fun y hy => ?_⟩
    rw [List.find?_eq_none] at hfind
    refine hfind y ?_ (decide_eq_true hy)
    cases y <;> decide

/-- What is resolved once stays, also if the attack was missing and has been set since. -/
theorem resolveWeaponType_resolveWeaponType (attack : Int32) (current : WeaponType) :
    let resolved := resolveWeaponType attack current
    resolveWeaponType (if attack = 0 then resolved.baseStat.attack else attack) resolved =
      resolved := by
  intro resolved
  by_cases hzero : attack = 0
  · rw [if_pos hzero]
    exact resolveWeaponType_attack resolved resolved
  · rw [if_neg hzero]
    rcases resolveWeaponType_cases attack current with hattack | ⟨hsame, -⟩
    · have hagain := resolveWeaponType_attack resolved resolved
      rwa [hattack] at hagain
    · rw [show resolved = current from hsame]
      exact hsame

theorem WeaponType.baseStat_ne_zero (x : WeaponType) :
    x.baseStat.attack ≠ 0 ∧ x.baseStat.defence ≠ 0 ∧ 0 < x.baseStat.maxHp := by
  cases x <;> decide

namespace GameObject

/-- The info has the statistics, and these are in order. -/
structure InOrder (o : GameObject) : Prop where
  hp : o.info.hp = o.stat.hp
  maxhp : o.info.maxhp = o.stat.maxHp
  attack : o.info.attack = o.stat.attack
  defence : o.info.defence = o.stat.defence
  speed : o.stat.speed = o.weaponType.baseStat.speed
  hp_nonneg : 0 ≤ o.info.hp
  hp_le : o.info.hp ≤ o.info.maxhp
  maxhp_pos : 0 < o.info.maxhp
  attack_ne : o.info.attack ≠ 0
  defence_ne : o.info.defence ≠ 0
  weaponType : resolveWeaponType o.info.attack o.weaponType = o.weaponType

/-- **Statistics that are in order are left as they are.** -/
theorem InOrder.refreshStatFromInfo (h : o.InOrder) : o.refreshStatFromInfo = o := by
  have hmax : ¬ o.info.maxhp ≤ 0 := Int32.not_le.2 h.maxhp_pos
  have hneg : ¬ o.info.hp < 0 := Int32.not_lt.2 h.hp_nonneg
  have hheal : ¬ (o.info.hp = 0 ∧ o.info.maxhp = 0) := by
    rintro ⟨-, hzero⟩
    exact hmax (by rw [hzero]; exact Int32.le_refl 0)
  have hcut : ¬ o.info.maxhp < o.info.hp := Int32.not_lt.2 h.hp_le
  have hstat : (⟨o.info.hp, o.info.maxhp, o.info.attack, o.info.defence,
      o.weaponType.baseStat.speed⟩ : Stat) = o.stat := by
    rw [h.hp, h.maxhp, h.attack, h.defence, ← h.speed]
  simp only [GameObject.refreshStatFromInfo, h.weaponType, if_neg hmax, if_neg hneg, if_neg hheal,
    if_neg hcut, if_neg h.attack_ne, if_neg h.defence_ne, hstat, syncInfoWithStat]

/-- The hp is cut to what it can be, or filled up if no statistics have been set. -/
theorem clampedHp_mem (hp maxhp : Int32) {maxHp : Int32} (hpos : 0 < maxHp) :
    let hp := if hp < 0 then 0 else hp
    let hp := if hp = 0 ∧ maxhp = 0 then maxHp else hp
    let hp := if maxHp < hp then maxHp else hp
    0 ≤ hp ∧ hp ≤ maxHp := by
  intro hp₁ hp₂ hp₃
  have h₁ : 0 ≤ hp₁ := by
    simp only [hp₁]
    split
    · exact Int32.le_refl 0
    · rename_i h
      exact Int32.not_lt.1 h
  have h₂ : 0 ≤ hp₂ := by
    simp only [hp₂]
    split
    · exact Int32.le_of_lt hpos
    · exact h₁
  simp only [hp₃]
  split
  · exact ⟨Int32.le_of_lt hpos, Int32.le_refl _⟩
  · rename_i h
    exact ⟨h₂, Int32.not_lt.1 h⟩

/-- **Afterwards the statistics are in order.** -/
theorem inOrder_refreshStatFromInfo (o : GameObject) : o.refreshStatFromInfo.InOrder := by
  set resolved := resolveWeaponType o.info.attack o.weaponType with hresolved
  obtain ⟨hattack, hdefence, hmax⟩ := resolved.baseStat_ne_zero
  have hpos : 0 < if o.info.maxhp ≤ 0 then resolved.baseStat.maxHp else o.info.maxhp := by
    split
    · exact hmax
    · rename_i h
      exact Int32.not_le.1 h
  obtain ⟨hlow, hhigh⟩ := clampedHp_mem o.info.hp o.info.maxhp hpos
  refine ⟨rfl, rfl, rfl, rfl, rfl, hlow, hhigh, hpos, ?_, ?_, ?_⟩
  · show (if o.info.attack = 0 then resolved.baseStat.attack else o.info.attack) ≠ 0
    split
    · exact hattack
    · assumption
  · show (if o.info.defence = 0 then resolved.baseStat.defence else o.info.defence) ≠ 0
    split
    · exact hdefence
    · assumption
  · exact resolveWeaponType_resolveWeaponType o.info.attack o.weaponType

/-- **`RefreshStatFromInfo` normalises**: it brings the statistics in order, a second call changes
nothing, and an info as the server keeps it stays as it is. -/
theorem refreshStatFromInfo_normalises (o : GameObject) :
    o.refreshStatFromInfo.InOrder ∧
      o.refreshStatFromInfo.refreshStatFromInfo = o.refreshStatFromInfo ∧
      (1 ≤ o.info.hp ∧ o.info.hp ≤ o.info.maxhp ∧ (∃ x, Carries o.info x) →
        o.refreshStatFromInfo.info = o.info) := by
  have horder := inOrder_refreshStatFromInfo o
  refine ⟨horder, horder.refreshStatFromInfo, ?_⟩
  rintro ⟨hone, hle, x, hx⟩
  obtain ⟨hattack, hdefence, -⟩ := x.baseStat_ne_zero
  refine info_refreshStatFromInfo o ?_ hle ?_ ?_
  · intro hzero
    exact absurd (Int32.le_trans hone hzero) (by decide)
  · rw [hx.attack]
    exact hattack
  · rw [hx.defence]
    exact hdefence

end GameObject

end Zelda.Client
