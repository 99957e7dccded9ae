import Zelda.Server.Aside

/-!
# Strikes

Of all that an update does, only the strike of a monster can take a player out of the room, and it
does so exactly if the monster is due to hit, its target is close enough and the hit takes the last
hp of the target (`Lethal`). The other states of a monster leave the players alone (`Aside`).

* `strike_takesAway`, `updateMonster_takesAway`: one monster.
* `update_takesAway`: the whole update, in a room with the first monster only.
-/

namespace Zelda.Server

open Protocol Std

variable {P : Platform} {w w' : World} {id pid : ObjectId} {ref : ObjectRef}

/-! ## Lethal strikes -/

/-- The monster is about to hit, and the hit takes the last hp of the player. -/
structure Lethal (w : World) (now : UInt64) (id pid : ObjectId) (m : Monster) (p : Player) :
    Prop where
  monster : w.room.monsters[id]? = some m
  player : w.room.players[pid]? = some p
  state : m.info.state = skill
  due : m.waitUntil ≤ now
  target : m.target = some pid
  monster_room : m.room = true
  player_room : p.room = true
  near : (p.info.getCellPos - m.info.getCellPos).manhattan = 1
  last : hpAfter m.info p.info ≤ 0

/-- From `w` to `w'` the player is taken away exactly if something lethal happens. -/
structure TakesAway (w w' : World) (pid : ObjectId) (lethal : Prop) : Prop where
  killed : lethal → w'.room.session? pid = none
  kept : ¬ lethal → w'.room.session? pid = w.room.session? pid

theorem TakesAway.of_players {lethal : Prop} (h : w'.room.players = w.room.players)
    (hnot : ¬ lethal) : TakesAway w w' pid lethal :=
  ⟨fun hyes => absurd hyes hnot, fun _ => by rw [GameRoom.session?, h, GameRoom.session?]⟩

theorem Hit.session? {attacker victim : ObjectRef} (h : Hit attacker victim w w') :
    w'.room.session? pid = w.room.session? pid ∨
      victim = .player pid ∧ w'.room.session? pid = none ∧ ∃ a v,
        w.room.info? attacker = some a ∧ w.room.info? victim = some v ∧ hpAfter a v ≤ 0 := by
  cases h with
  | missed => exact .inl rfl
  | hurt _ _ _ hq => exact .inl (by rw [hq.room, World.session?_modifyInfo, World.room_log])
  | @killed a v _ ha hv hzero hq =>
    rw [hq.room, World.session?_erase]
    split
    · rename_i hvictim
      exact .inr ⟨hvictim, rfl, a, v, ha, hv, hzero⟩
    · exact .inl rfl

/-- Nobody survives a lethal hit. -/
theorem applyDamage_killed {attacker victim : ObjectRef} {a v : GameObject} (h : Registry w)
    (ha : w.room.object? attacker = some a) (hv : w.room.object? victim = some v)
    (hroom : a.room = true) (hroom' : v.room = true) (hzero : hpAfter a.info v.info ≤ 0)
    (hok : applyDamage P attacker victim w = .ok w') : ¬ w'.room.Registered victim := by
  have hvinfo := GameRoom.info?_of_object? hv
  obtain ⟨w₁, hw₁⟩ : ∃ w₁, w₁ = (w.log (hitEvent attacker victim a.info v.info)).modifyInfo victim
    (·.setHp (hpAfter a.info v.info)) := ⟨_, rfl⟩
  have hr₁ : Registry w₁ := by
    rw [hw₁]
    exact (h.of_quiet (.log w _)).modifyInfo fun _ => ⟨rfl, rfl⟩
  have hreg : w₁.room.Registered victim := by
    rw [hw₁, World.room_modifyInfo, GameRoom.registered_modifyInfo]
    exact GameRoom.registered_of_info? hvinfo
  have hremove : removeObject P victim.id w₁ = .ok w' := by
    rw [← h.objectid hvinfo, ← hok]
    simp only [applyDamage, ha, hv, hroom, hroom', Bool.true_eq_false, or_self, if_false,
      if_pos hzero, hw₁, hitEvent]
  cases removeObject_ok hr₁.toLinked hremove with
  | absent hnone => cases hnone.symm.trans (hr₁.findObject hreg)
  | erased hsome hq =>
    obtain rfl := Option.some.inj ((hr₁.findObject hreg).symm.trans hsome)
    rw [hq.room, World.room_erase, GameRoom.registered_erase]
    exact fun hstill => hstill.1 rfl

theorem GameRoom.session?_eq_none {r : GameRoom} (h : ¬ r.Registered (.player id)) :
    r.session? id = none := by
  cases hs : r.session? id with
  | none => rfl
  | some s => exact absurd (registered_player.2 (mem_players_of_session? hs)) h

/-! ## The attack of a monster -/

/-- A hit on a player takes it away exactly if it takes its last hp. -/
theorem applyDamage_takesAway {attacker : ObjectRef} {a : GameObject} {p : Player}
    {targetId : ObjectId} (h : Registry w) (ha : w.room.object? attacker = some a)
    (hp : w.room.players[targetId]? = some p) (hroom : a.room = true) (hroom' : p.room = true)
    (hok : applyDamage P attacker (.player targetId) w = .ok w') :
    TakesAway w w' pid (targetId = pid ∧ hpAfter a.info p.info ≤ 0) := by
  have hv : w.room.object? (.player targetId) = some p.toGameObject :=
    congrArg (Option.map Player.toGameObject) hp
  constructor
  · rintro ⟨rfl, hzero⟩
    apply GameRoom.session?_eq_none
    exact applyDamage_killed h ha hv hroom hroom' hzero hok
  · intro hnot
    have hhit : Hit attacker (.player targetId) w w' := applyDamage_ok h hok
    rcases hhit.session? with hsame | ⟨hvictim, -, a', v, ha', hv', hzero⟩
    · exact hsame
    · obtain rfl := Option.some.inj ((GameRoom.info?_of_object? ha).symm.trans ha')
      obtain rfl := Option.some.inj ((GameRoom.info?_of_object? hv).symm.trans hv')
      exact absurd ⟨ObjectRef.player.inj hvictim, hzero⟩ hnot

/-- A strike takes the target away exactly if it is close enough and has too little hp. The state of
the monster has been set back before it strikes. -/
theorem strike_takesAway {m m₀ : Monster} (h : Registry w) (hm : w.room.monsters[id]? = some m₀)
    (hroom₀ : m₀.room = true) (hinfo : m₀.info = m.info.setState idle) (hroom : m.room = true)
    (hok : strike P id m w = .ok w') :
    TakesAway w w' pid (∃ p, w.room.players[pid]? = some p ∧ m.target = some pid ∧
      p.room = true ∧ (p.info.getCellPos - m.info.getCellPos).manhattan = 1 ∧
      hpAfter m.info p.info ≤ 0) := by
  unfold strike at hok
  split at hok
  · rename_i hnone
    obtain rfl := Except.ok.inj hok
    refine .of_players rfl ?_
    rintro ⟨p, hp, htarget, -⟩
    rw [GameRoom.lock, htarget, Option.bind_some, hp] at hnone
    cases hnone
  · rename_i targetId target hsome
    obtain ⟨htarget, hplayer⟩ := GameRoom.lock_eq_some hsome
    -- the target is the only player that can be concerned
    have honly : ∀ p, w.room.players[pid]? = some p → m.target = some pid →
        targetId = pid ∧ target = p := by
      intro p hp htarget'
      obtain rfl := Option.some.inj (htarget.symm.trans htarget')
      exact ⟨rfl, Option.some.inj (hplayer.symm.trans hp)⟩
    split at hok
    · rename_i hne
      obtain rfl := Except.ok.inj hok
      refine .of_players rfl ?_
      rintro ⟨p, hp, htarget', hp_room, -⟩
      obtain ⟨rfl, rfl⟩ := honly p hp htarget'
      exact hne (hp_room.trans hroom.symm)
    · rename_i heq
      have htarget_room : target.room = true := (not_not.1 heq).trans hroom
      split at hok
      · rename_i hnear
        have ha : w.room.object? (.monster id) = some m₀.toGameObject :=
          congrArg (Option.map Monster.toGameObject) hm
        have hid : m.info.objectid = id := by
          have hobjectid := h.objectid (GameRoom.info?_of_object? ha)
          rwa [hinfo] at hobjectid
        have hself : w.room.findObject m.info.objectid = some (.monster id) := by
          rw [hid]
          exact h.findObject (GameRoom.registered_of_info? (GameRoom.info?_of_object? ha))
        simp only [hself] at hok
        obtain ⟨w₁, hhit, hreset⟩ := bind_eq_ok.1 hok
        have hsession : w'.room.session? pid = w₁.room.session? pid := by
          split at hreset <;> cases hreset <;> rfl
        have haway : TakesAway w w₁ pid (targetId = pid ∧ hpAfter m₀.info target.info ≤ 0) :=
          applyDamage_takesAway h ha hplayer hroom₀ htarget_room hhit
        rw [hinfo] at haway
        constructor
        · rintro ⟨p, hp, htarget', -, -, hzero⟩
          obtain ⟨rfl, rfl⟩ := honly p hp htarget'
          exact hsession.trans (haway.killed ⟨rfl, hzero⟩)
        · intro hnot
          refine hsession.trans (haway.kept ?_)
          rintro ⟨rfl, hzero⟩
          exact hnot ⟨target, hplayer, htarget, htarget_room, hnear, hzero⟩
      · rename_i hfar
        obtain rfl := Except.ok.inj hok
        refine .of_players rfl ?_
        rintro ⟨p, hp, htarget', -, hnear, -⟩
        obtain ⟨rfl, rfl⟩ := honly p hp htarget'
        exact hfar hnear

theorem updateSkill_takesAway {m : Monster} {now : UInt64} (h : Registry w)
    (hm : w.room.monsters[id]? = some m) (hskill : m.info.state = skill)
    (hok : updateSkill P now id w = .ok w') :
    TakesAway w w' pid (∃ m p, Lethal w now id pid m p) := by
  have honly : ∀ {m' p}, Lethal w now id pid m' p → m' = m := fun hl =>
    Option.some.inj (hl.monster.symm.trans hm)
  unfold updateSkill at hok
  simp only [hm] at hok
  split at hok
  · rename_i hearly
    obtain rfl := Except.ok.inj hok
    refine .of_players rfl ?_
    rintro ⟨m', p, hl⟩
    obtain rfl := honly hl
    exact absurd hearly (UInt64.not_lt.2 hl.due)
  · rename_i hdue
    obtain ⟨w₁, hstate, hok⟩ := bind_eq_ok.1 hok
    obtain ⟨w₂, hstrike, hsay⟩ := bind_eq_ok.1 hok
    have hne : skill ≠ idle := by decide
    have hi : w.room.info? (.monster id) = some m.info := GameRoom.info?_of_monster hm
    have hw₁ : w₁ = w.modifyInfo (.monster id) (·.setState idle) := by
      simp only [setState, hi, hskill, if_neg hne, Bool.false_eq_true, if_false] at hstate
      exact (Except.ok.inj hstate).symm
    have h₁ : Registry w₁ := by
      rw [hw₁]
      exact h.modifyInfo fun _ => ⟨rfl, rfl⟩
    have hm₁ : w₁.room.monsters[id]? = some { m with info := m.info.setState idle } := by
      rw [hw₁, World.modifyInfo_monster]
      exact World.getElem?_modifyMonster hm _
    have hplayers : w₁.room.players = w.room.players := by rw [hw₁]; rfl
    have hsession : w₁.room.session? pid = w.room.session? pid := by
      rw [GameRoom.session?, hplayers, GameRoom.session?]
    have h₂ : Registry w₂ := by
      split at hstrike
      · exact (strike_edits h₁ hstrike).registry h₁
      · exact Except.ok.inj hstrike ▸ h₁
    have hroom : w'.room = w₂.room := broadcastMove_room h₂ hsay
    split at hstrike
    · rename_i hmroom
      have haway : TakesAway w₁ w₂ pid _ := strike_takesAway h₁ hm₁ hmroom rfl hmroom hstrike
      rw [hplayers] at haway
      constructor
      · rintro ⟨m', p, hl⟩
        obtain rfl := honly hl
        rw [hroom]
        exact haway.killed ⟨p, hl.player, hl.target, hl.player_room, hl.near, hl.last⟩
      · intro hnot
        rw [hroom, ← hsession]
        refine haway.kept ?_
        rintro ⟨p, hp, htarget, hp_room, hnear, hzero⟩
        exact hnot ⟨m, p, hm, hp, hskill, UInt64.not_lt.1 hdue, htarget, hmroom, hp_room, hnear,
          hzero⟩
    · rename_i hmroom
      obtain rfl := Except.ok.inj hstrike
      refine .of_players (by rw [hroom, hplayers]) ?_
      rintro ⟨m', p, hl⟩
      obtain rfl := honly hl
      exact hmroom hl.monster_room

theorem updateMonster_takesAway {fuel : ℕ} {now : UInt64} (h : Registry w)
    (hok : updateMonster P fuel now id w = .ok w') :
    TakesAway w w' pid (∃ m p, Lethal w now id pid m p) := by
  have hstate : ∀ {m p}, Lethal w now id pid m p →
      (w.room.info? (.monster id)).map (·.state) = some skill := by
    intro m p hl
    rw [GameRoom.info?_monster, hl.monster, ← hl.state]
    rfl
  unfold updateMonster at hok
  split at hok
  · rename_i hnone
    obtain rfl := Except.ok.inj hok
    refine .of_players rfl ?_
    rintro ⟨m, p, hl⟩
    have h' := hstate hl
    rw [hnone] at h'
    cases h'
  · rename_i info hi
    have hother : ∀ {state : Int32}, info.state = state → state ≠ skill →
        ¬ ∃ m p, Lethal w now id pid m p := by
      rintro state rfl hne ⟨m, p, hl⟩
      have h' := hstate hl
      rw [hi] at h'
      exact hne (Option.some.inj h')
    split at hok
    · rename_i hidle
      exact .of_players (updateIdle_aside h hok).players (hother hidle (by decide))
    · split at hok
      · rename_i hmove
        exact .of_players (updateMove_aside h hok).players (hother hmove (by decide))
      · split at hok
        · rename_i hskill
          rw [GameRoom.info?_monster, Option.map_eq_some_iff] at hi
          obtain ⟨m, hm, rfl⟩ := hi
          exact updateSkill_takesAway h hm hskill hok
        · rename_i hskill
          obtain rfl := Except.ok.inj hok
          exact .of_players rfl (hother rfl hskill)

/-- In a room with the first monster only, an update takes a player away exactly if the strike of a
monster is lethal. -/
theorem update_takesAway {fuel : ℕ} {clock : ObjectId → UInt64} (h : Registry w)
    (hone : ∀ id, id ∈ w.room.monsters → id = 1) (hok : update P fuel clock w = .ok w') :
    TakesAway w w' pid (∃ id m p, Lethal w (clock id) id pid m p) := by
  have hkey : ∀ {id m p}, Lethal w (clock id) id pid m p → id ∈ w.room.monsters.keys := by
    intro id m p hl
    rw [ExtTreeMap.mem_keys, ExtTreeMap.mem_iff_isSome_getElem?, hl.monster]
    rfl
  have hkeys : ∀ id ∈ w.room.monsters.keys, id = 1 :=
    fun id hid => hone id (ExtTreeMap.mem_keys.1 hid)
  have hnd : w.room.monsters.keys.Nodup := ExtTreeMap.nodup_keys
  unfold update at hok
  match hk : w.room.monsters.keys with
  | [] =>
    rw [hk] at hok
    obtain rfl := Except.ok.inj hok
    refine .of_players rfl ?_
    rintro ⟨id, m, p, hl⟩
    have hid := hkey hl
    rw [hk] at hid
    cases hid
  | id :: id' :: ids =>
    rw [hk] at hkeys hnd
    have h₁ := hkeys id List.mem_cons_self
    have h₂ := hkeys id' (List.mem_cons_of_mem _ List.mem_cons_self)
    rw [h₁, h₂] at hnd
    exact absurd List.mem_cons_self (List.nodup_cons.1 hnd).1
  | [id] =>
    have hmem : id ∈ w.room.monsters := by
      rw [← ExtTreeMap.mem_keys, hk]
      exact List.mem_cons_self
    rw [hk, updateFrom, if_pos hmem] at hok
    obtain ⟨w₁, hmonster, hrest⟩ := bind_eq_ok.1 hok
    have hw' : w₁ = w' := by
      split at hrest
      · exact Except.ok.inj hrest
      · cases hrest
    subst hw'
    have haway : TakesAway w w₁ pid _ := updateMonster_takesAway h hmonster
    constructor
    · rintro ⟨id', m, p, hl⟩
      have hid := hkey hl
      rw [hk, List.mem_singleton] at hid
      exact haway.killed ⟨m, p, hid ▸ hl⟩
    · exact fun hnot => haway.kept fun ⟨m, p, hl⟩ => hnot ⟨id, m, p, hl⟩

end Zelda.Server
