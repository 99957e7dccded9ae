import Zelda.Foundations.Pacing
import Zelda.Server.Turns

/-!
# The pace of monsters

A monster that has stepped waits before it is idle again, and one that has aimed waits before it
strikes. Both use `_waitUntil`, which is left stale while the monster is idle. Each turn of a monster
is a turn of a timer (`Zelda.Pacing.Turn`, `updateMonster_turnOf`), the turns of others and the other
steps of the server leave the timer alone or take the monster away (`ServerStep.paced`), and the clock
does not go back; so the rule for timers applies to a monster in a run of the server. A strike is a
call of `ApplyDamage`, and each of them is in the trace (`applyDamage_recorded`).

Main result: `monster_pacing`.
-/

namespace Zelda.Server

open Protocol Std

variable {P : Platform} {w w' w'' : World} {id k : ObjectId} {ref : ObjectRef} {m : Monster}
  {fuel : ℕ} {now : UInt64} {evs : List Event} {s : SessionId}

/-! ## The timer of a monster -/

/-- The phase a state of `Monster::Update` is. -/
def phaseOf (state : Int32) : Pacing.Phase :=
  if state = move then .stepping else if state = skill then .aiming else .resting

def Monster.timer (m : Monster) : Pacing.Timer ℕ := ⟨phaseOf m.info.state, m.waitUntil.toNat⟩

/-- The timer of a monster that is in the room. -/
def World.timer? (w : World) (id : ObjectId) : Option (Pacing.Timer ℕ) :=
  w.room.monsters[id]?.map (·.timer)

/-- Whether an event is an `ApplyDamage` with this monster as the attacker. -/
def Event.struckBy (id : ObjectId) : Event → Bool
  | .applyDamage (.monster k) _ _ _ _ _ => k = id
  | _ => false

/-- How often `ApplyDamage` was called with this monster as the attacker. -/
def World.strikes (w : World) (id : ObjectId) : ℕ := w.trace.countP (·.struckBy id)

theorem Still.strikes (hq : Still w w' evs) (id : ObjectId) :
    w'.strikes id = w.strikes id + evs.countP (·.struckBy id) := by
  rw [World.strikes, hq.trace, List.countP_append]
  rfl

theorem countP_announce (r : GameRoom) (pkt : ServerPacket) (id : ObjectId) :
    (r.announce pkt).countP (·.struckBy id) = 0 := by
  rw [List.countP_eq_zero]
  intro e he
  obtain ⟨s, -, rfl⟩ := List.mem_map.1 he
  exact Bool.false_ne_true

theorem struckBy_hitEvent {attacker victim : ObjectRef} {a v : ObjectInfo} :
    (hitEvent attacker victim a v).struckBy id = true ↔ attacker = .monster id := by
  cases attacker with
  | player k => simp [hitEvent, Event.struckBy]
  | monster k => simp [hitEvent, Event.struckBy]

/-! ## A monster that is left alone -/

/-- The monster is where and as it was, as far as its pace goes, and has not struck. -/
structure Kept (id : ObjectId) (w w' : World) : Prop where
  timer : w'.timer? id = w.timer? id
  cell : w'.room.cells (.monster id) = w.room.cells (.monster id)
  strikes : w'.strikes id = w.strikes id

namespace Kept

theorem refl (id : ObjectId) (w : World) : Kept id w w := ⟨rfl, rfl, rfl⟩

theorem trans (h : Kept id w w') (h' : Kept id w' w'') : Kept id w w'' :=
  ⟨h'.timer.trans h.timer, h'.cell.trans h.cell, h'.strikes.trans h.strikes⟩

theorem of_still (hq : Still w w' evs) (hevs : evs.countP (·.struckBy id) = 0) :
    Kept id w w' := by
  refine ⟨?_, by rw [hq.room], by rw [hq.strikes, hevs, Nat.add_zero]⟩
  rw [World.timer?, World.timer?, hq.room]

theorem of_announce {r : GameRoom} {pkt : ServerPacket} (hq : Quiet w w' (r.announce pkt)) :
    Kept id w w' := of_still hq.toStill (countP_announce r pkt id)

theorem of_monster (hm : w'.room.monsters[id]? = w.room.monsters[id]?)
    (htrace : w'.trace = w.trace) : Kept id w w' := by
  refine ⟨?_, ?_, ?_⟩
  · rw [World.timer?, hm, World.timer?]
  · rw [GameRoom.cells, GameRoom.info?_monster, hm, GameRoom.cells, GameRoom.info?_monster]
  · rw [World.strikes, htrace, World.strikes]

theorem modifyMonster_of_ne (hne : id ≠ k) (f : Monster → Monster) :
    Kept id w (w.modifyMonster k f) := by
  refine of_monster ?_ rfl
  rw [World.room_modifyMonster, GameRoom.getElem?_modifyMonster, if_neg hne]

/-- A change that sets neither the state nor the deadline nor the cell. -/
theorem modifyMonster {f : Monster → Monster}
    (hf : ∀ m, (f m).timer = m.timer ∧ (f m).info.getCellPos = m.info.getCellPos) :
    Kept id w (w.modifyMonster k f) := by
  refine ⟨?_, ?_, rfl⟩
  · rw [World.timer?, World.room_modifyMonster, GameRoom.getElem?_modifyMonster, World.timer?]
    split_ifs with hid
    · subst hid
      rw [Option.map_map]
      exact congrArg (w.room.monsters[id]?.map ·) (funext fun m => (hf m).1)
    · rfl
  · rw [World.room_modifyMonster, GameRoom.cells_modifyMonster_of_cell fun m => (hf m).2]

theorem setTarget (target : Option ObjectId) : Kept id w (w.setTarget k target) :=
  modifyMonster fun _ => ⟨rfl, rfl⟩

theorem modifyInfo_of_ne (hne : ref ≠ .monster id) (f : ObjectInfo → ObjectInfo) :
    Kept id w (w.modifyInfo ref f) := by
  cases ref with
  | player pid => exact of_monster rfl rfl
  | monster k => exact modifyMonster_of_ne (fun h => hne (congrArg ObjectRef.monster h.symm)) _

theorem setHp (hp : Int32) : Kept id w (w.modifyInfo ref (·.setHp hp)) := by
  cases ref with
  | player pid => exact of_monster rfl rfl
  | monster k => exact modifyMonster fun _ => ⟨rfl, rfl⟩

theorem erase_of_ne (hne : ref ≠ .monster id) : Kept id w (w.erase ref) := by
  cases ref with
  | player pid => exact of_monster rfl rfl
  | monster k =>
    refine of_monster ?_ rfl
    have hk : k ≠ id := fun h => hne (congrArg ObjectRef.monster h)
    simp only [World.erase, World.setRoom, GameRoom.erase, ExtTreeMap.getElem?_erase]
    simp [hk]

theorem broadcastMove (h : Registry w) (hok : broadcastMove P ref w = .ok w') : Kept id w w' := by
  unfold Server.broadcastMove at hok
  split at hok
  · cases hok
    exact refl id w
  · split at hok
    · exact of_announce (broadcast_ok h.toLinked hok)
    · cases hok
      exact refl id w

end Kept

/-! ## Hits -/

/-- A monster is left alone or taken away. -/
structure Spared (id : ObjectId) (w w' : World) : Prop where
  timer : w'.timer? id = none ∨
    w'.timer? id = w.timer? id ∧ w'.room.cells (.monster id) = w.room.cells (.monster id)
  strikes : w'.strikes id = w.strikes id

theorem Kept.spared (h : Kept id w w') : Spared id w w' := ⟨.inr ⟨h.timer, h.cell⟩, h.strikes⟩

/-- A hit on a player leaves all monsters alone, once it is recorded. -/
theorem Hit.kept {attacker : ObjectRef} {pid : ObjectId} (hhit : Hit attacker (.player pid) w w') :
    w' = w ∨ ∃ a v, Kept id (w.log (hitEvent attacker (.player pid) a v)) w' := by
  cases hhit with
  | missed => exact .inl rfl
  | @hurt a v _ _ _ _ hq => exact .inr ⟨a, v, (Kept.setHp _).trans (.of_announce hq)⟩
  | @killed a v _ _ _ _ hq =>
    exact .inr ⟨a, v, (Kept.erase_of_ne (by simp)).trans (.of_announce hq)⟩

theorem Kept.log {attacker victim : ObjectRef} {a v : ObjectInfo} (hne : attacker ≠ .monster id) :
    Kept id w (w.log (hitEvent attacker victim a v)) := by
  refine .of_still (Quiet.log w _).toStill ?_
  rw [List.countP_singleton, if_neg (by rwa [struckBy_hitEvent])]

theorem Spared.trans (h : Spared id w w') (h' : Spared id w' w'') : Spared id w w'' := by
  refine ⟨?_, h'.strikes.trans h.strikes⟩
  rcases h'.timer with hgone | ⟨htimer, hcell⟩
  · exact .inl hgone
  · rw [htimer, hcell]
    exact h.timer

theorem Spared.erase (ref : ObjectRef) : Spared id w (w.erase ref) := by
  by_cases href : ref = .monster id
  · refine ⟨.inl ?_, rfl⟩
    rw [World.timer?, Option.map_eq_none_iff]
    subst href
    simp [World.erase, World.setRoom, GameRoom.erase]
  · exact (Kept.erase_of_ne href).spared

/-- A hit of somebody else may take a monster away. -/
theorem Hit.spared {attacker victim : ObjectRef} (hne : attacker ≠ .monster id)
    (hhit : Hit attacker victim w w') : Spared id w w' := by
  cases hhit with
  | missed => exact (Kept.refl id w).spared
  | hurt _ _ _ hq => exact (((Kept.log hne).trans (.setHp _)).trans (.of_announce hq)).spared
  | killed _ _ _ hq =>
    exact ((Kept.log hne).spared.trans (.erase victim)).trans (Kept.of_announce hq).spared

/-! ## The turn of another monster -/

theorem Registry.objectid_of_monster (h : Registry w) (hm : w.room.monsters[id]? = some m) :
    m.info.objectid = id := h.objectid (GameRoom.info?_of_monster hm)

theorem setState_kept {state : Int32} {announce : Bool} (h : Registry w) (hne : id ≠ k)
    (hok : setState P (.monster k) state announce w = .ok w') : Kept id w w' := by
  have hset : Kept id w (w.modifyInfo (.monster k) (·.setState state)) :=
    .modifyMonster_of_ne hne _
  rcases setState_cases hok with rfl | rfl | hsay
  · exact .refl id w'
  · exact hset
  · exact hset.trans (.broadcastMove (h.modifyInfo fun _ => ⟨rfl, rfl⟩) hsay)

theorem updateIdle_kept (h : Registry w) (hne : id ≠ k)
    (hok : updateIdle P fuel now k w = .ok w') : Kept id w w' := by
  cases updateIdle_cases hok with
  | absent hw => exact hw ▸ .refl id w
  | stays hw => exact hw ▸ .setTarget _
  | @aims m target pid player w₂ hm hroom hlock hstate hw =>
    have hdir := (h.setTarget k target).setDir k (m.info.getLookAtDir player.info.getCellPos)
    have haimed := (Kept.modifyMonster_of_ne hne _).trans (setState_kept hdir hne hstate)
    rw [hw]
    exact ((Kept.setTarget target).trans haimed).trans (.modifyMonster_of_ne hne _)
  | @follows m target pid player path hm hroom hlock hpath hfollow =>
    have htarget : Kept id w (w.setTarget k target) := .setTarget target
    refine htarget.trans ?_
    rcases followPath_cases hfollow with rfl | ⟨pos, -, rfl⟩ | ⟨src, nextPos, rest, -, -, hstate⟩
    · exact .refl id _
    · exact .modifyMonster_of_ne hne _
    · have hstepped := setState_kept ((h.setTarget k target).stepped k _ nextPos now) hne hstate
      rw [World.stepped_eq] at hstepped
      exact (Kept.modifyMonster_of_ne hne _).trans hstepped

theorem updateMove_kept (h : Registry w) (hne : id ≠ k) (hok : updateMove P now k w = .ok w') :
    Kept id w w' := by
  rcases updateMove_cases hok with rfl | ⟨-, -, -, hstate⟩
  · exact .refl id w'
  · exact setState_kept h hne hstate

/-- A strike of another monster. -/
theorem strike_kept (h : Registry w) (hne : id ≠ k) (hobjectid : m.info.objectid = k)
    (hok : strike P k m w = .ok w') : Kept id w w' := by
  rcases strike_cases hok with (rfl | rfl) | ⟨self, targetId, -, w₁, -, -, hself, hhit, hw'⟩
  · exact .refl id w'
  · exact .setTarget none
  · have hother : self ≠ .monster id := by
      rintro rfl
      exact hne ((GameRoom.findObject_eq_some hself).1.trans hobjectid)
    have hkept : Kept id w w₁ := by
      rcases (applyDamage_ok h hhit).kept with rfl | ⟨a, v, hlogged⟩
      · exact .refl id w₁
      · exact (Kept.log hother).trans hlogged
    rcases hw' with rfl | rfl
    · exact hkept
    · exact hkept.trans (.setTarget none)

theorem updateSkill_kept (h : Registry w) (hne : id ≠ k) (hok : updateSkill P now k w = .ok w') :
    Kept id w w' := by
  rcases updateSkill_cases hok with rfl | ⟨m, w₁, w₂, hm, -, hstate, hstrike, hsay⟩
  · exact .refl id w'
  · have h₁ := (setState_silent_edits hstate).registry h
    have hkept₁ := setState_kept h hne hstate
    rcases hstrike with rfl | ⟨-, hstrike⟩
    · exact hkept₁.trans (.broadcastMove h₁ hsay)
    · have hkept₂ := strike_kept h₁ hne (h.objectid_of_monster hm) hstrike
      exact (hkept₁.trans hkept₂).trans (.broadcastMove ((strike_edits h₁ hstrike).registry h₁) hsay)

/-- A monster is left alone in the turns of the others. -/
theorem updateMonster_kept (h : Registry w) (hne : id ≠ k)
    (hok : updateMonster P fuel now k w = .ok w') : Kept id w w' := by
  rcases updateMonster_cases hok with rfl | ⟨info, -, ⟨-, hok⟩ | ⟨-, hok⟩ | ⟨-, hok⟩⟩
  · exact .refl id w'
  · exact updateIdle_kept h hne hok
  · exact updateMove_kept h hne hok
  · exact updateSkill_kept h hne hok

/-! ## The own turn -/

/-- A turn of the monster itself: a turn of its timer, in which only a step changes the cell and
only a strike is recorded, once. -/
structure TurnOf (id : ObjectId) (now : UInt64) (w w' : World) : Prop where
  turn : ∃ a b x, w.timer? id = some a ∧ w'.timer? id = some b ∧
    Pacing.Turn 1000 a now.toNat x b ∧
    (x ≠ some .step → w'.room.cells (.monster id) = w.room.cells (.monster id)) ∧
    w'.strikes id = w.strikes id + if x = some .strike then 1 else 0

theorem timer?_of_monster (hm : w.room.monsters[id]? = some m) : w.timer? id = some m.timer := by
  rw [World.timer?, hm]
  rfl

theorem cells_of_monster (hm : w.room.monsters[id]? = some m) :
    w.room.cells (.monster id) = some m.info.getCellPos :=
  GameRoom.cells_of_info? (GameRoom.info?_of_monster hm)

namespace TurnOf

theorem of_kept (hm : w.room.monsters[id]? = some m) (h : Kept id w w') : TurnOf id now w w' :=
  ⟨m.timer, m.timer, none, timer?_of_monster hm, h.timer.trans (timer?_of_monster hm), .stay _ _,
    fun _ => h.cell, h.strikes⟩

theorem of_monsters {m' : Monster} {x : Option Pacing.Act} (hm : w.room.monsters[id]? = some m)
    (hm' : w'.room.monsters[id]? = some m') (hturn : Pacing.Turn 1000 m.timer now.toNat x m'.timer)
    (hcell : x ≠ some .step → m'.info.getCellPos = m.info.getCellPos)
    (hstrikes : w'.strikes id = w.strikes id + if x = some .strike then 1 else 0) :
    TurnOf id now w w' := by
  refine ⟨_, _, x, timer?_of_monster hm, timer?_of_monster hm', hturn, fun hx => ?_, hstrikes⟩
  rw [cells_of_monster hm', cells_of_monster hm, hcell hx]

theorem after (h : TurnOf id now w' w'') (hkept : Kept id w w') : TurnOf id now w w'' := by
  obtain ⟨a, b, x, ha, hb, hturn, hcell, hstrikes⟩ := h
  exact ⟨a, b, x, hkept.timer ▸ ha, hb, hturn, fun hx => (hcell hx).trans hkept.cell,
    hkept.strikes ▸ hstrikes⟩

theorem before (h : TurnOf id now w w') (hkept : Kept id w' w'') : TurnOf id now w w'' := by
  obtain ⟨a, b, x, ha, hb, hturn, hcell, hstrikes⟩ := h
  exact ⟨a, b, x, ha, hkept.timer.trans hb, hturn, fun hx => hkept.cell.trans (hcell hx),
    hkept.strikes.trans hstrikes⟩

end TurnOf

theorem phaseOf_idle : phaseOf idle = .resting := by decide

theorem phaseOf_move : phaseOf move = .stepping := by decide

theorem phaseOf_skill : phaseOf skill = .aiming := by decide

/-- A monster that sets its own state, which may be what it is. -/
theorem setState_own {state : Int32} {announce : Bool} (h : Registry w)
    (hm : w.room.monsters[id]? = some m)
    (hok : setState P (.monster id) state announce w = .ok w') :
    w'.room.monsters[id]? = some { m with info := m.info.setState state } ∧
      w'.strikes id = w.strikes id := by
  have hset : (w.modifyInfo (.monster id) (·.setState state)).room.monsters[id]? =
      some { m with info := m.info.setState state } := by
    rw [World.modifyInfo_monster]
    exact World.getElem?_modifyMonster hm _
  unfold setState at hok
  rw [GameRoom.info?_of_monster hm] at hok
  simp only at hok
  split at hok
  · rename_i hsame
    obtain rfl := Except.ok.inj hok
    refine ⟨hm.trans ?_, rfl⟩
    rw [← hsame]
    rfl
  · split at hok
    · have h₁ : Registry (w.modifyInfo (.monster id) (·.setState state)) :=
        h.modifyInfo fun _ => ⟨rfl, rfl⟩
      have hkept : Kept id _ w' := .broadcastMove h₁ hok
      rw [broadcastMove_room h₁ hok]
      exact ⟨hset, hkept.strikes⟩
    · obtain rfl := Except.ok.inj hok
      exact ⟨hset, rfl⟩

theorem updateMove_turnOf (h : Registry w) (hm : w.room.monsters[id]? = some m)
    (hmove : m.info.state = move) (hok : updateMove P now id w = .ok w') : TurnOf id now w w' := by
  rcases updateMove_cases hok with rfl | ⟨m', hm', hdue, hstate⟩
  · exact .of_kept hm (.refl id w')
  · obtain rfl := Option.some.inj (hm.symm.trans hm')
    obtain ⟨hm₁, hstrikes⟩ := setState_own h hm hstate
    refine .of_monsters (x := none) hm hm₁ ?_ (fun _ => rfl) hstrikes
    rw [Monster.timer, hmove, phaseOf_move]
    exact .rest (UInt64.le_iff_toNat_le.1 hdue)

/-- A call of `ApplyDamage` for two objects that are in the room is recorded. -/
theorem applyDamage_recorded {attacker : ObjectRef} {pid : ObjectId} {a v : GameObject}
    (h : Registry w) (ha : w.room.object? attacker = some a) (ha_room : a.room = true)
    (hv : w.room.object? (.player pid) = some v) (hv_room : v.room = true)
    (hok : applyDamage P attacker (.player pid) w = .ok w') :
    ∃ a v, Kept id (w.log (hitEvent attacker (.player pid) a v)) w' := by
  have hlonger : ∃ e evs, w'.trace = (w.trace ++ [e]) ++ evs := by
    have hr : Registry ((w.log (hitEvent attacker (.player pid) a.info v.info)).modifyInfo
        (.player pid) (·.setHp (hpAfter a.info v.info))) :=
      (h.of_quiet (.log w _)).modifyInfo fun _ => ⟨rfl, rfl⟩
    simp only [applyDamage, ha, hv, ha_room, hv_room, Bool.true_eq_false, or_self, if_false] at hok
    split at hok
    · cases removeObject_ok hr.toLinked hok with
      | absent => exact ⟨_, [], (List.append_nil _).symm⟩
      | erased _ hq => exact ⟨_, _, hq.trace⟩
    · exact ⟨_, _, (broadcast_ok hr.toLinked hok).trace⟩
  rcases (applyDamage_ok h hok).kept with rfl | hlogged
  · obtain ⟨e, evs, hlonger⟩ := hlonger
    have hlength := congrArg List.length hlonger
    simp only [List.length_append, List.length_singleton] at hlength
    omega
  · exact hlogged

/-- A strike of the monster itself: a call of `ApplyDamage`, or none. -/
theorem strike_own {m₀ : Monster} (h : Registry w) (hm : w.room.monsters[id]? = some m₀)
    (hm₀_room : m₀.room = true) (hobjectid : m.info.objectid = id) (hroom : m.room = true)
    (hok : strike P id m w = .ok w') :
    Kept id w w' ∨
      ∃ pid a v, Kept id (w.log (hitEvent (.monster id) (.player pid) a v)) w' := by
  rcases strike_cases hok with
    (rfl | rfl) | ⟨self, targetId, target, w₁, hlock, htarget, hself, hhit, hw'⟩
  · exact .inl (.refl id w')
  · exact .inl (.setTarget none)
  · have hfound := h.findObject (GameRoom.registered_of_info? (GameRoom.info?_of_monster hm))
    rw [hobjectid] at hself
    obtain rfl := Option.some.inj (hself.symm.trans hfound)
    have hplayer : w.room.object? (.player targetId) = some target.toGameObject := by
      rw [GameRoom.object?, (GameRoom.lock_eq_some hlock).2]
      rfl
    have hmonster : w.room.object? (.monster id) = some m₀.toGameObject := by
      rw [GameRoom.object?, hm]
      rfl
    obtain ⟨a, v, hlogged⟩ :
        ∃ a v, Kept id (w.log (hitEvent (.monster id) (.player targetId) a v)) w₁ :=
      applyDamage_recorded h hmonster hm₀_room hplayer (htarget.trans hroom) hhit
    refine .inr ⟨targetId, a, v, ?_⟩
    rcases hw' with rfl | rfl
    · exact hlogged
    · exact hlogged.trans (.setTarget none)

theorem updateSkill_turnOf (h : Registry w) (hm : w.room.monsters[id]? = some m)
    (hskill : m.info.state = skill) (hok : updateSkill P now id w = .ok w') :
    TurnOf id now w w' := by
  rcases updateSkill_cases hok with rfl | ⟨m', w₁, w₂, hm', hdue, hstate, hstrike, hsay⟩
  · exact .of_kept hm (.refl id w')
  · obtain rfl := Option.some.inj (hm.symm.trans hm')
    obtain ⟨hm₁, hstrikes₁⟩ := setState_own h hm hstate
    have h₁ := (setState_silent_edits hstate).registry h
    have hdue : m.waitUntil.toNat ≤ now.toNat := UInt64.le_iff_toNat_le.1 hdue
    have htimer : m.timer = ⟨.aiming, m.waitUntil.toNat⟩ := by
      rw [Monster.timer, hskill, phaseOf_skill]
    have hgiveUp : TurnOf id now w w₁ := by
      refine .of_monsters (x := none) hm hm₁ ?_ (fun _ => rfl) hstrikes₁
      rw [htimer]
      exact .giveUp hdue
    rcases hstrike with rfl | ⟨hroom, hstrike⟩
    · exact hgiveUp.before (.broadcastMove h₁ hsay)
    · have h₂ := (strike_edits h₁ hstrike).registry h₁
      have hkept₂ : Kept id w₂ w' := .broadcastMove h₂ hsay
      rcases strike_own h₁ hm₁ hroom (h.objectid_of_monster hm) hroom hstrike with
        hkept | ⟨pid, a, v, hlogged⟩
      · exact hgiveUp.before (hkept.trans hkept₂)
      · -- the record of the strike is all that is added
        have hstruck : TurnOf id now w (w₁.log (hitEvent (.monster id) (.player pid) a v)) := by
          refine .of_monsters (x := some .strike) hm hm₁ ?_ (fun _ => rfl) ?_
          · rw [htimer]
            exact .strike hdue
          · rw [(Quiet.log w₁ _).toStill.strikes, hstrikes₁, List.countP_singleton,
              if_pos (struckBy_hitEvent.2 rfl), if_pos rfl]
        exact hstruck.before (hlogged.trans hkept₂)

/-- The deadline that `_waitUntil = now + 1000` sets, before the clock wraps around. -/
theorem toNat_add_period (hnow : now.toNat + 1000 < 2 ^ 64) :
    (now + 1000).toNat = now.toNat + 1000 := by
  rw [UInt64.toNat_add]
  exact Nat.mod_eq_of_lt hnow

theorem updateIdle_turnOf (h : Registry w) (hnow : now.toNat + 1000 < 2 ^ 64)
    (hm : w.room.monsters[id]? = some m) (hidle : m.info.state = idle)
    (hok : updateIdle P fuel now id w = .ok w') : TurnOf id now w w' := by
  have htimer : m.timer = ⟨.resting, m.waitUntil.toNat⟩ := by
    rw [Monster.timer, hidle, phaseOf_idle]
  have hm₁ : ∀ target, (w.setTarget id target).room.monsters[id]? =
      some { m with target := target } := fun _ => World.getElem?_modifyMonster hm _
  cases updateIdle_cases hok with
  | absent hw =>
    rw [hw]
    exact .of_kept hm (.refl id w)
  | stays hw =>
    rw [hw]
    exact .of_kept hm (.setTarget _)
  | @aims m' target pid player w₂ hm' _ _ hstate hw =>
    obtain rfl := Option.some.inj (hm.symm.trans hm')
    have hdir := (h.setTarget id target).setDir id (m.info.getLookAtDir player.info.getCellPos)
    obtain ⟨hm₂, hstrikes⟩ := setState_own hdir (World.getElem?_modifyMonster (hm₁ target) _) hstate
    rw [hw]
    refine .of_monsters (x := none) hm (World.getElem?_modifyMonster hm₂ _) ?_ (fun _ => rfl)
      hstrikes
    rw [htimer, Monster.timer, toNat_add_period hnow]
    exact .aim _ _
  | @follows m' target pid player path hm' _ hlock hpath hfollow =>
    obtain rfl := Option.some.inj (hm.symm.trans hm')
    have htarget : Kept id w (w.setTarget id target) := .setTarget target
    refine TurnOf.after ?_ htarget
    rcases followPath_cases hfollow with rfl | ⟨pos, rfl, rfl⟩ | ⟨src, nextPos, rest, -, -, hstate⟩
    · exact .of_kept (hm₁ target) (.refl id _)
    · obtain rfl := findPath_singleton hpath
      exact .of_monsters (x := none) (hm₁ target) (World.getElem?_modifyMonster (hm₁ target) _)
        (.stay _ _) (fun _ => rfl) rfl
    · have hr := (h.setTarget id target).stepped id (m.info.getLookAtDir nextPos) nextPos now
      rw [World.stepped_eq] at hr hstate
      obtain ⟨hm₂, hstrikes⟩ :=
        setState_own hr (World.getElem?_modifyMonster (hm₁ target) _) hstate
      refine .of_monsters (x := some .step) (hm₁ target) hm₂ ?_ (fun h => absurd rfl h) hstrikes
      change Pacing.Turn 1000 m.timer now.toNat _ ⟨.stepping, (now + 1000).toNat⟩
      rw [htimer, toNat_add_period hnow]
      exact .step _ _

theorem updateMonster_turnOf (h : Registry w) (hnow : now.toNat + 1000 < 2 ^ 64)
    (hm : w.room.monsters[id]? = some m) (hok : updateMonster P fuel now id w = .ok w') :
    TurnOf id now w w' := by
  rcases updateMonster_cases hok with
    rfl | ⟨info, hinfo, ⟨hidle, hok⟩ | ⟨hmove, hok⟩ | ⟨hskill, hok⟩⟩
  · exact .of_kept hm (.refl id w')
  all_goals obtain rfl := Option.some.inj ((GameRoom.info?_of_monster hm).symm.trans hinfo)
  · exact updateIdle_turnOf h hnow hm hidle hok
  · exact updateMove_turnOf h hm hmove hok
  · exact updateSkill_turnOf h hm hskill hok

/-! ## The update of the room -/

/-- Without its own turn a monster is left alone. -/
theorem updateFrom_kept {clock : ObjectId → UInt64} {ids : List ObjectId} (h : Registry w)
    (hid : id ∉ ids) (hok : updateFrom P fuel clock ids w = .ok w') : Kept id w w' := by
  induction ids generalizing w with
  | nil =>
    cases hok
    exact .refl id _
  | cons k ids ih =>
    have hne : id ≠ k := List.ne_of_not_mem_cons hid
    have hids : id ∉ ids := List.not_mem_of_not_mem_cons hid
    rcases updateFrom_cons_cases hok with hrest | ⟨w₁, hturn, hrest⟩
    · exact ih h hids hrest
    · have hkept := updateMonster_kept h hne hturn
      exact hkept.trans (ih ((updateMonster_edits h hturn).registry h) hids hrest)

/-- **In an update a monster takes one turn of its timer, or none.** -/
theorem updateFrom_turnOf {clock : ObjectId → UInt64} {ids : List ObjectId} (h : Registry w)
    (hclock : (clock id).toNat + 1000 < 2 ^ 64) (hnodup : ids.Nodup)
    (hok : updateFrom P fuel clock ids w = .ok w') : Kept id w w' ∨ TurnOf id (clock id) w w' := by
  induction ids generalizing w with
  | nil =>
    cases hok
    exact .inl (.refl id _)
  | cons k ids ih =>
    obtain ⟨hk, hids⟩ := List.nodup_cons.1 hnodup
    rcases updateFrom_cons_cases hok with hrest | ⟨w₁, hturn, hrest⟩
    · exact ih h hids hrest
    · have h₁ := (updateMonster_edits h hturn).registry h
      by_cases hne : id = k
      · subst hne
        have hkept : Kept id w₁ w' := updateFrom_kept h₁ hk hrest
        cases hm : w.room.monsters[id]? with
        | none =>
          rcases updateMonster_cases hturn with rfl | ⟨info, hinfo, -⟩
          · exact .inl hkept
          · rw [GameRoom.info?_monster, hm] at hinfo
            cases hinfo
        | some m => exact .inr ((updateMonster_turnOf h hclock hm hturn).before hkept)
      · have hkept := updateMonster_kept h hne hturn
        rcases ih h₁ hids hrest with hkept' | hturn'
        · exact .inl (hkept.trans hkept')
        · exact .inr (hturn'.after hkept)

/-! ## The other steps of the server -/

theorem Left.spared (hl : Left s w w') : Spared id w w' := by
  cases hl with
  | noPlayer => exact (Kept.refl id w).spared
  | removed _ hremoved =>
    cases hremoved with
    | absent => exact (Kept.refl id w).spared
    | erased _ hq => exact (Spared.erase _).trans (Kept.of_announce hq).spared

theorem Disconnected.spared (hd : Disconnected s w w') : Spared id w w' := by
  cases hd with
  | already => exact (Kept.refl id w).spared
  | left _ hleft => exact (Kept.of_still (still_setConnected w s false) rfl).spared.trans hleft.spared

theorem Sent.spared (hs : Sent s w w') : Spared id w w' := by
  cases hs with
  | quiet hq => exact (Kept.of_still hq.toStill rfl).spared
  | disconnected hq hdis hclear =>
    have hleft : Spared id w _ := (Kept.of_still hq.toStill rfl).spared.trans hdis.spared
    exact hleft.trans (Kept.of_still hclear.toStill rfl).spared

theorem Connected.kept (hc : Connected s w w') : Kept id w w' := by
  obtain ⟨hsend, hsends, hadd⟩ := hc
  rename_i mid₁ mid₂
  have hsent : Kept id _ mid₁ := .of_still hsend.toStill rfl
  have hlinked : Kept id mid₁ (mid₁.link s) := .of_monster rfl rfl
  have htold : Kept id _ mid₂ := .of_still hsends.toStill rfl
  have hadded : ∀ p, Kept id mid₂ (mid₂.setRoom (mid₂.room.addPlayer p)) := fun _ =>
    .of_monster rfl rfl
  have hgreeted := (Kept.of_still (still_setConnected w s true) rfl).trans hsent
  exact ((hgreeted.trans (hlinked.trans htold)).trans (hadded _)).trans (.of_announce hadd)

theorem Attack.spared (ha : Attack ref w w') (hne : ref ≠ .monster id) : Spared id w w' := by
  have hlog : Kept id w (w.log (.processSkill ref.id)) := .of_still (Quiet.log w _).toStill rfl
  cases ha with
  | none => exact (Kept.refl id w).spared
  | missed => exact hlog.spared
  | hit _ _ _ hhit => exact hlog.spared.trans (hhit.spared hne)

/-- The packet names the player of the session it comes from. -/
def NamesOwnPlayer (w : World) : ServerEvent → Prop
  | .receiveCMove s pkt => (w.sessions s).player = some pkt.info.objectid
  | _ => True

theorem Moved.spared {pkt : CMove} (hmoved : Moved pkt w w') (h : Registry w)
    (hown : (w.sessions s).player = some pkt.info.objectid) : Spared id w w' := by
  cases hmoved with
  | absent => exact (Kept.refl id w).spared
  | @moved ref _ w₁ _ hfind _ hattack _ hq =>
    obtain ⟨hid, hreg⟩ := GameRoom.findObject_eq_some hfind
    have hne : ref ≠ .monster id := by
      rintro rfl
      exact h.not_monster (hid ▸ hown) (GameRoom.registered_monster.1 hreg)
    have hset : Kept id w (w.modifyInfo ref (moveInfo pkt)) := .modifyInfo_of_ne hne _
    exact (hset.spared.trans (hattack.spared hne)).trans (Kept.of_announce hq).spared

/-! ## Runs -/

/-- What the monster reads from `GetTickCount64` in an update. -/
def ServerEvent.tick? (id : ObjectId) : ServerEvent → Option ℕ
  | .update clock => some (clock id).toNat
  | _ => none

/-- `GetTickCount64` counts the milliseconds since the system was started: in a run of `n` steps it
does not go back, and it is nowhere near its end. -/
structure TickCount (n : ℕ) (ev : ℕ → ServerEvent) : Prop where
  mono : ∀ id i j t t', i < j → j < n → (ev i).tick? id = some t → (ev j).tick? id = some t' → t ≤ t'
  fits : ∀ id i t, i < n → (ev i).tick? id = some t → t + 1000 < 2 ^ 64

/-- The monster is on another cell than before. -/
def ChangesCell (id : ObjectId) (w w' : World) : Prop :=
  ∃ c c', w.room.cells (.monster id) = some c ∧ w'.room.cells (.monster id) = some c' ∧ c' ≠ c

/-- A step of the server as the timer of a monster sees it. -/
structure Paced (id : ObjectId) (tick : Option ℕ) (w w' : World) (x : Option Pacing.Act) : Prop where
  next : (x = none ∧ (w'.timer? id = none ∨ w'.timer? id = w.timer? id)) ∨
    ∃ t a b, tick = some t ∧ w.timer? id = some a ∧ w'.timer? id = some b ∧
      Pacing.Turn 1000 a t x b
  step : ChangesCell id w w' → x = some .step
  strikes : w'.strikes id = w.strikes id + if x = some .strike then 1 else 0

theorem not_changesCell_of_cells {w w' : World}
    (h : w'.room.cells (.monster id) = w.room.cells (.monster id)) : ¬ ChangesCell id w w' := by
  rintro ⟨c, c', hc, hc', hne⟩
  rw [h, hc] at hc'
  exact hne (Option.some.inj hc').symm

theorem Spared.paced (h : Spared id w w') (tick : Option ℕ) : Paced id tick w w' none := by
  refine ⟨.inl ⟨rfl, h.timer.imp_right (·.1)⟩, fun hstep => ?_, h.strikes⟩
  rcases h.timer with hgone | ⟨-, hcell⟩
  · obtain ⟨c, c', -, hc', -⟩ := hstep
    obtain ⟨info, hinfo, -⟩ := GameRoom.cells_eq_some.1 hc'
    rw [World.timer?, Option.map_eq_none_iff] at hgone
    rw [GameRoom.info?_monster, hgone] at hinfo
    cases hinfo
  · exact absurd hstep (not_changesCell_of_cells hcell)

theorem TurnOf.paced (h : TurnOf id now w w') : ∃ x, Paced id (some now.toNat) w w' x := by
  obtain ⟨a, b, x, ha, hb, hturn, hcell, hstrikes⟩ := h
  refine ⟨x, .inr ⟨_, a, b, rfl, ha, hb, hturn⟩, fun hstep => ?_, hstrikes⟩
  exact not_not.1 fun hx => not_changesCell_of_cells (hcell hx) hstep

/-- **Every step of the server is a turn of the timer, leaves it alone or takes it away.** -/
theorem ServerStep.paced {ev : ServerEvent} (hs : ServerStep P w ev w') (h : Registry w)
    (hown : NamesOwnPlayer w ev) (id : ObjectId)
    (hfits : ∀ t, ev.tick? id = some t → t + 1000 < 2 ^ 64) :
    ∃ x, Paced id (ev.tick? id) w w' x := by
  cases hs with
  | processConnect hnew hok =>
    have hp : (w.sessions _).player = none := congrArg GameSession.player hnew
    exact ⟨none, (processConnect_ok h hp hok).kept.spared.paced _⟩
  | disconnect hok => exact ⟨none, (disconnect_ok h.toLinked hok).spared.paced _⟩
  | receiveCMove hok =>
    rcases receiveCMove_ok h hok with rfl | hmoved
    · exact ⟨none, (Kept.refl id _).spared.paced _⟩
    · exact ⟨none, (hmoved.spared h hown).paced _⟩
  | processSend hok => exact ⟨none, (processSend_ok h hok).spared.paced _⟩
  | update hok =>
    rcases updateFrom_turnOf h (hfits _ rfl) ExtTreeMap.nodup_keys hok with hkept | hturn
    · exact ⟨none, hkept.spared.paced _⟩
    · exact hturn.paced

/-- **Monsters keep their pace.** In every run of the server in which packets name the player of
their own session, a monster that has stepped to another cell does so again a second later at the
earliest, and so does one that has struck. A step of the server records one strike of it at most. -/
theorem monster_pacing (P : Platform) (tilemap : Tilemap) (n : ℕ) (w : ℕ → World)
    (ev : ℕ → ServerEvent) (hinit : w 0 = World.init tilemap)
    (hrun : ∀ i < n, ServerStep P (w i) (ev i) (w (i + 1)))
    (hown : ∀ i < n, NamesOwnPlayer (w i) (ev i)) (hticks : TickCount n ev) (id : ObjectId) :
    (∀ i j, i < j → j < n → ChangesCell id (w i) (w (i + 1)) → ChangesCell id (w j) (w (j + 1)) →
      ∃ t t', (ev i).tick? id = some t ∧ (ev j).tick? id = some t' ∧ t + 1000 ≤ t') ∧
    (∀ i < n, (w (i + 1)).strikes id ≤ (w i).strikes id + 1) ∧
    (∀ i j, i < j → j < n → (w i).strikes id < (w (i + 1)).strikes id →
      (w j).strikes id < (w (j + 1)).strikes id →
      ∃ t t', (ev i).tick? id = some t ∧ (ev j).tick? id = some t' ∧ t + 1000 ≤ t') := by
  have hregistry : ∀ i ≤ n, Registry (w i) := by
    intro i hi
    induction i with
    | zero => exact hinit ▸ registry_init tilemap
    | succ i ih => exact (hrun i hi).registry (ih (by omega))
  have hpaced : ∀ i, ∃ x, i < n → Paced id ((ev i).tick? id) (w i) (w (i + 1)) x := by
    intro i
    by_cases hi : i < n
    · obtain ⟨x, hx⟩ := (hrun i hi).paced (hregistry i hi.le) (hown i hi) id
        fun t ht => hticks.fits id i t hi ht
      exact ⟨x, fun _ => hx⟩
    · exact ⟨none, fun h => absurd h hi⟩
  choose act hact using hpaced
  have hpace : Pacing.Run 1000 n (fun i => (w i).timer? id) (fun i => (ev i).tick? id) act :=
    ⟨fun i hi => (hact i hi).next, hticks.mono id⟩
  refine ⟨fun i j hij hj hi' hj' => ?_, fun i hi => ?_, fun i j hij hj hi' hj' => ?_⟩
  · exact hpace.spaced hij hj ((hact i (hij.trans hj)).step hi') ((hact j hj).step hj')
  · have hstrikes := (hact i hi).strikes
    split_ifs at hstrikes <;> omega
  · have hstrike : ∀ i < n, (w i).strikes id < (w (i + 1)).strikes id → act i = some .strike := by
      intro i hi hlt
      have hstrikes := (hact i hi).strikes
      split_ifs at hstrikes with hx
      · exact hx
      · omega
    exact hpace.spaced hij hj (hstrike i (hij.trans hj) hi') (hstrike j hj hj')

/-! ## A skirmish -/

/-- What the server does at an event. -/
def eventResult (P : Platform) (fuel : ℕ) (w : World) : ServerEvent → Result
  | .processConnect s => processConnect P s w
  | .disconnect s => disconnect P s w
  | .receiveCMove s pkt => receiveCMove P s pkt w
  | .processSend s numOfBytes => processSend P s numOfBytes w
  | .update clock => update P fuel clock w

theorem Result.eq_ok_world {result : Result} (h : result.isOk = true) :
    result = .ok result.world := by
  cases result with
  | ok w => rfl
  | error fault => cases h

theorem serverStep_of_isOk {ev : ServerEvent}
    (hnew : ∀ s, ev = .processConnect s → w.sessions s = {})
    (h : (eventResult P fuel w ev).isOk = true) :
    ServerStep P w ev (eventResult P fuel w ev).world := by
  have hok := Result.eq_ok_world h
  cases ev with
  | processConnect s => exact .processConnect (hnew s rfl) hok
  | disconnect => exact .disconnect hok
  | receiveCMove => exact .receiveCMove hok
  | processSend => exact .processSend hok
  | update => exact .update hok

/-- A map with a single walkable column. -/
def corridorMap : Tilemap where
  mapSize := ⟨10, 10⟩
  tiles := List.replicate 10 (List.replicate 8 { walkable := false } ++ [{}, { walkable := false }])

/-- The packet of the first player when it has gone to a cell. -/
def walksTo (cellPos : Vec2Int) : CMove := ⟨(enteringPlayer 2 0).info.setCellPos cellPos⟩

/-- The first player goes beside the first monster, is struck twice and goes away. -/
def skirmishEvent : ℕ → ServerEvent
  | 0 => .processConnect 0
  | 1 => .receiveCMove 0 (walksTo ⟨8, 7⟩)
  | 2 => .update fun _ => 0
  | 3 | 4 => .update fun _ => 1000
  | 5 => .update fun _ => 2000
  | 6 => .receiveCMove 0 (walksTo ⟨8, 5⟩)
  | 7 => .update fun _ => 2000
  | _ => .update fun _ => 3000

def skirmishWorld : ℕ → World
  | 0 => World.init corridorMap
  | n + 1 => (eventResult (.always .accepted) 60 (skirmishWorld n) (skirmishEvent n)).world

theorem serverStep_skirmish : ∀ i < 10,
    ServerStep (.always .accepted) (skirmishWorld i) (skirmishEvent i) (skirmishWorld (i + 1)) := by
  have hok : ∀ i < 10, (eventResult (.always .accepted) 60 (skirmishWorld i)
      (skirmishEvent i)).isOk = true := by decide +kernel
  intro i hi
  refine serverStep_of_isOk (fun s hs => ?_) (hok i hi)
  unfold skirmishEvent at hs
  split at hs
  · rfl
  all_goals cases hs

theorem tickCount_skirmish : TickCount 10 skirmishEvent := by
  have hsame : ∀ id i, (skirmishEvent i).tick? id = (skirmishEvent i).tick? 0 := by
    intro id i
    unfold skirmishEvent
    split <;> rfl
  have hmono : ∀ j < 10, ∀ i < j, ∀ t ∈ (skirmishEvent i).tick? 0,
      ∀ t' ∈ (skirmishEvent j).tick? 0, t ≤ t' := by decide
  have hfits : ∀ i < 10, ∀ t ∈ (skirmishEvent i).tick? 0, t + 1000 < 2 ^ 64 := by decide
  refine ⟨fun id i j t t' hij hj ht ht' => ?_, fun id i t hi ht => ?_⟩
  · rw [hsame] at ht ht'
    exact hmono j hj i hij t ht t' ht'
  · rw [hsame] at ht
    exact hfits i hi t ht

theorem namesOwnPlayer_skirmish : ∀ i < 10, NamesOwnPlayer (skirmishWorld i) (skirmishEvent i) := by
  intro i hi
  match i with
  | 1 | 6 => rfl
  | 0 | 2 | 3 | 4 | 5 | 7 => trivial
  | i + 8 => trivial

theorem monster_pacing_skirmish :
    (∃ t t', (skirmishEvent 7).tick? 1 = some t ∧ (skirmishEvent 9).tick? 1 = some t' ∧
      t + 1000 ≤ t') ∧
    (∃ t t', (skirmishEvent 3).tick? 1 = some t ∧ (skirmishEvent 5).tick? 1 = some t' ∧
      t + 1000 ≤ t') := by
  have hpace := monster_pacing (.always .accepted) corridorMap 10 skirmishWorld skirmishEvent rfl
    serverStep_skirmish namesOwnPlayer_skirmish tickCount_skirmish 1
  refine ⟨hpace.1 7 9 (by decide) (by decide) ⟨⟨8, 8⟩, ⟨8, 7⟩, ?_⟩ ⟨⟨8, 7⟩, ⟨8, 6⟩, ?_⟩,
    hpace.2.2 3 5 (by decide) (by decide) ?_ ?_⟩
  all_goals decide +kernel

end Zelda.Server
