import Zelda.Foundations.Deadlines
import Zelda.Server.Between
import Zelda.Server.ClosestPlayer
import Zelda.Server.Pursuit
import Zelda.Server.Strikes

/-!
# The hunt

A monster alone with a player who stands still on open ground, near enough, comes nearer with every
step, and beside the player it strikes. What it has to do until the player is dead is the steps and
the strikes, of which each takes at least one hp (`toDo`). A turn of the monster is a turn of work
in the sense of `Foundations/Deadlines` (`Hunt.turn`), and the steps of the server between the
updates make it no longer (`Hunt.serverStep`).

Main result: `caught_of_run`. Whoever stands still is gone by a time that depends on the distance,
on the hp and on how often the room is updated.
-/

namespace Zelda.Server

open Protocol Std
open scoped Int32Order

variable {P : Platform} {fuel : ℕ} {now : UInt64} {id pid : ObjectId} {w w' : World}
  {r : GameRoom} {Q : PriorityQueue PQNode PQNode.cost} {map : Tilemap} {p c : Vec2Int}
  {mon : Monster} {player : Player}

/-! ## The way to the player -/

theorem manhattan_sub (a b : Vec2Int) : (a - b).manhattan = a.distance b := Int32.add_comm _ _

/-- Nearby, the room tells who stands beside whom. -/
theorem manhattan_sub_eq_one (hnear : c.gap p < 10) : (p - c).manhattan = 1 ↔ c.gap p = 1 := by
  have hone : (1 : Int32).toInt = 1 := by decide
  rw [manhattan_sub, Vec2Int.distance_comm, ← Int32.toInt_inj, hone,
    Vec2Int.toInt_distance_of_gap_lt (by omega), Nat.cast_eq_one]

section Open

variable (hopen : ∀ x, map.Inside x → map.Walkable x) (hp : map.Inside p)
include hopen hp

/-- **On open ground `FindPath` finds a way** to the player, unless the monster is beside it. -/
theorem Facing.exists_path (h : Facing map id pid p c r) (hc : map.Inside c)
    (hnear : c.gap p < 10) (hne : c ≠ p) (hfar : c.gap p ≠ 1) {res : Option (List Vec2Int)}
    (hres : findPath Q r c p fuel = some res) :
    ∃ next rest, res = some (c :: next :: rest) ∧ FirstStep map p c next := by
  have hclose : ¬ (10 : Int32) ≤ c.distance p := by
    have h10 : (10 : Int32).toInt = 10 := by decide
    rw [Int32.not_le, Int32.lt_iff_toInt_lt, Vec2Int.toInt_distance_of_gap_lt (by omega)]
    omega
  have hsome := hres
  rw [findPath_eq, if_neg hclose] at hsome
  obtain ⟨path, hrun, rfl⟩ := Option.map_eq_some_iff.1 hsome
  have hB : (greedySearch r c p 10).Lawful := lawful hnear.le
  obtain ⟨st, d, hfound⟩ := BestFirst.result_of_run hB hrun
  have hway := (hfound.isWay hB).1
  have hgoal := h.planGoal hnear.le hne hfound.isGoal
  have hbeside := (hgoal.beside hopen hc hp hnear hne).1
  have hd : d ≠ c := by
    rintro rfl
    exact hfar ((Vec2Int.gap_comm _ _).trans hbeside)
  have hhead := hway.head?_eq
  have hlast := hway.getLast?_eq
  match path with
  | [] => cases hhead
  | [_] => exact absurd ((Option.some.inj hlast).symm.trans (Option.some.inj hhead)) hd
  | _ :: next :: rest =>
    obtain rfl := Option.some.inj hhead
    exact ⟨next, rest, rfl, h.firstStep hnear.le hres⟩

end Open

/-! ## A monster that hunts -/

/-- The monster is alone with a player on `p`, near enough to find a way and not on the same
cell. -/
structure Hunt (map : Tilemap) (id pid : ObjectId) (p : Vec2Int) (w : World) (mon : Monster)
    (player : Player) : Prop where
  registry : Registry w
  sound : Sound w
  housed : Housed w
  duel : Duel map id pid p w.room
  monster : w.room.monsters[id]? = some mon
  player : w.room.players[pid]? = some player
  state : mon.info.state ∈ [idle, move, skill]
  inside : map.Inside mon.info.getCellPos
  near : mon.info.getCellPos.gap p < 10
  ne : mon.info.getCellPos ≠ p

namespace Hunt

theorem monster_info (h : Hunt map id pid p w mon player) :
    w.room.info? (.monster id) = some mon.info := GameRoom.info?_of_monster h.monster

theorem player_info (h : Hunt map id pid p w mon player) :
    w.room.info? (.player pid) = some player.info := GameRoom.info?_of_player h.player

theorem cell (h : Hunt map id pid p w mon player) : player.info.getCellPos = p :=
  (h.duel.player pid _ (GameRoom.cells_of_info? h.player_info)).2

theorem facing (h : Hunt map id pid p w mon player) :
    Facing map id pid p mon.info.getCellPos w.room where
  toDuel := h.duel
  own := GameRoom.cells_of_info? h.monster_info
  present := by rw [GameRoom.cells_of_info? h.player_info, h.cell]

theorem monster_room (h : Hunt map id pid p w mon player) : mon.room = true :=
  h.housed (.monster id) mon.toGameObject (congrArg (Option.map Monster.toGameObject) h.monster)

theorem player_room (h : Hunt map id pid p w mon player) : player.room = true :=
  h.housed (.player pid) player.toGameObject (congrArg (Option.map Player.toGameObject) h.player)

/-- There is nobody else to aim at. -/
theorem eq_of_lock (h : Hunt map id pid p w mon player) {target : Option ObjectId}
    {k : ObjectId} {other : Player} (hlock : w.room.lock target = some (k, other)) :
    target = some pid ∧ other = player := by
  obtain ⟨htarget, hother⟩ := GameRoom.lock_eq_some hlock
  obtain rfl := (h.duel.player k _ (GameRoom.cells_of_info? (GameRoom.info?_of_player hother))).1
  exact ⟨htarget, Option.some.inj (hother.symm.trans h.player)⟩

/-- An idle monster aims at the player. -/
theorem target (h : Hunt map id pid p w mon player) :
    (if (w.room.lock mon.target).isNone then w.room.findClosestPlayer mon.info.getCellPos
      else mon.target) = some pid := by
  split
  · cases hfound : w.room.findClosestPlayer mon.info.getCellPos with
    | none =>
      have hmem : pid ∈ w.room.players := by
        rw [ExtTreeMap.mem_iff_isSome_getElem?, h.player]
        rfl
      exact absurd hmem (findClosestPlayer_eq_none.1 hfound pid)
    | some k =>
      obtain ⟨c, hc, -⟩ := seenClosest_of_findClosestPlayer hfound
      rw [(h.duel.player k c hc).1]
  · rename_i hsome
    cases hlock : w.room.lock mon.target with
    | none => exact absurd (by rw [hlock]; rfl) hsome
    | some locked => exact (h.eq_of_lock hlock).1

theorem lock (h : Hunt map id pid p w mon player) :
    w.room.lock (some pid) = some (pid, player) := by
  rw [GameRoom.lock, Option.bind_some, h.player]
  rfl

/-! ## The three states -/

/-- What an idle monster has done in its turn: it has aimed at the player beside it, or stepped. -/
inductive Roused (map : Tilemap) (pid : ObjectId) (p : Vec2Int) (now : UInt64)
    (mon mon' : Monster) : Prop
  | aimed (hbeside : mon.info.getCellPos.gap p = 1) (hstate : mon'.info.state = skill)
      (hcell : mon'.info.getCellPos = mon.info.getCellPos) (htarget : mon'.target = some pid)
      (hwait : mon'.waitUntil = now + 1000)
  | stepped (hstep : FirstStep map p mon.info.getCellPos mon'.info.getCellPos)
      (hstate : mon'.info.state = move) (hwait : mon'.waitUntil = now + 1000)

theorem updateIdle_roused (h : Hunt map id pid p w mon player)
    (hopen : ∀ x, map.Inside x → map.Walkable x) (hp : map.Inside p)
    (hok : updateIdle P fuel now id w = .ok w') :
    ∃ mon', w'.room.monsters[id]? = some mon' ∧ Roused map pid p now mon mon' := by
  have hr := h.registry.setTarget id (some pid)
  have hm₁ : (w.setTarget id (some pid)).room.monsters[id]? =
      some { mon with target := some pid } := World.getElem?_modifyMonster h.monster _
  have hlock : (w.setTarget id (some pid)).room.lock (some pid) = some (pid, player) := h.lock
  have hcells : (w.setTarget id (some pid)).room.cells = w.room.cells :=
    GameRoom.cells_modifyMonster_of_cell fun _ => rfl
  have hroom : ¬ mon.room = false := by rw [h.monster_room]; decide
  have hfacing : Facing map id pid p mon.info.getCellPos (w.setTarget id (some pid)).room := by
    have hduel := h.duel
    refine ⟨⟨hduel.tilemap, ?_, ?_⟩, ?_, ?_⟩
    · rw [hcells]
      exact hduel.monster
    · rw [hcells]
      exact hduel.player
    · rw [hcells]
      exact h.facing.own
    · rw [hcells]
      exact h.facing.present
  unfold updateIdle at hok
  simp only [h.monster, if_neg hroom, h.target, hlock, h.cell,
    manhattan_sub_eq_one h.near] at hok
  split at hok
  · rename_i hbeside
    obtain ⟨w₂, hstate, hwait⟩ := bind_eq_ok.1 hok
    obtain ⟨hm₂, -⟩ := setState_own (hr.setDir id _) (World.getElem?_modifyMonster hm₁ _) hstate
    obtain rfl := Except.ok.inj hwait
    exact ⟨_, World.getElem?_modifyMonster hm₂ _, .aimed hbeside rfl rfl rfl rfl⟩
  · rename_i hfar
    split at hok
    · cases hok
    · rename_i hpath
      obtain ⟨next, rest, hres, -⟩ := hfacing.exists_path hopen hp h.inside h.near h.ne hfar hpath
      cases hres
    · rename_i path hpath
      obtain ⟨next, rest, hres, hfirst⟩ :=
        hfacing.exists_path hopen hp h.inside h.near h.ne hfar hpath
      obtain rfl := Option.some.inj hres
      obtain ⟨-, hwalk, hne, hnew, -⟩ := hfirst.step
      have hgo := hfacing.canGo_iff.2 ⟨hwalk, hne, hnew⟩
      simp only [followPath, hgo, if_true] at hok
      rw [World.stepped_eq] at hok
      have hr₁ := hr.stepped id (mon.info.getLookAtDir next) next now
      rw [World.stepped_eq] at hr₁
      obtain ⟨hm₂, -⟩ := setState_own hr₁ (World.getElem?_modifyMonster hm₁ _) hok
      exact ⟨_, hm₂, .stepped hfirst rfl rfl⟩

theorem updateMove_rests (h : Hunt map id pid p w mon player)
    (hok : updateMove P now id w = .ok w') : now < mon.waitUntil ∧ w' = w ∨
      mon.waitUntil ≤ now ∧ ∃ mon', w'.room.monsters[id]? = some mon' ∧
        mon'.info = mon.info.setState idle ∧ mon'.waitUntil = mon.waitUntil := by
  simp only [updateMove, h.monster] at hok
  split at hok
  · rename_i hearly
    exact .inl ⟨hearly, (Except.ok.inj hok).symm⟩
  · rename_i hdue
    exact .inr ⟨UInt64.not_lt.1 hdue, _, (setState_own h.registry h.monster hok).1, rfl, rfl⟩

end Hunt

/-! ## Strikes -/

theorem Hit.monsters {attacker : ObjectRef} (hhit : Hit attacker (.player pid) w w') :
    w'.room.monsters = w.room.monsters := by
  cases hhit with
  | missed => rfl
  | hurt _ _ _ hq =>
    rw [hq.room]
    rfl
  | killed _ _ _ hq =>
    rw [hq.room]
    rfl

theorem getElem?_setHp (hplayer : w.room.players[pid]? = some player) (hp : Int32) :
    (w.modifyInfo (.player pid) (·.setHp hp)).room.players[pid]? =
      some { player with info := player.info.setHp hp } := by
  simp only [World.room_modifyInfo, GameRoom.modifyInfo, ExtTreeMap.getElem?_modify_self, hplayer]
  rfl

theorem getElem?_players_eq_none (h : ¬ r.Registered (.player pid)) : r.players[pid]? = none := by
  rw [GameRoom.registered_player] at h
  exact ExtTreeMap.getElem?_eq_none h

/-- The monster has aimed at the player beside it. -/
def Monster.AimsAt (mon : Monster) (pid : ObjectId) (p : Vec2Int) : Prop :=
  mon.target = some pid ∧ mon.info.getCellPos.gap p = 1

instance : Decidable (mon.AimsAt pid p) := inferInstanceAs (Decidable (_ ∧ _))

/-- What has become of the player when the monster has struck, or given up because there was nobody
to strike. -/
inductive Blow (pid : ObjectId) (p : Vec2Int) (mon : Monster) (player : Player)
    (player' : Option Player) : Prop
  | dead (hgone : player' = none)
  | hurt (hp : Int32) (hplayer : player' = some { player with info := player.info.setHp hp })
      (hpos : 1 ≤ hp) (hlt : hp < player.info.hp)
  | missed (hplayer : player' = some player) (hnot : ¬ mon.AimsAt pid p)

/-- Whoever is hit dies or has less hp. -/
theorem applyDamage_blow {attacker : ObjectRef} {a : GameObject} (h : Registry w)
    (ha : w.room.object? attacker = some a) (ha_room : a.room = true) (harmed : Armed a.info)
    (hplayer : w.room.players[pid]? = some player) (hroom : player.room = true)
    (hfit : Fit player.info) (hok : applyDamage P attacker (.player pid) w = .ok w') :
    Blow pid p mon player w'.room.players[pid]? := by
  have hv : w.room.object? (.player pid) = some player.toGameObject :=
    congrArg (Option.map Player.toGameObject) hplayer
  by_cases hzero : hpAfter a.info player.info ≤ 0
  · exact .dead (getElem?_players_eq_none (applyDamage_killed h ha hv ha_room hroom hzero hok))
  · have hpos := Int32.not_le.1 hzero
    obtain ⟨h₁, hlt⟩ := hpAfter_lt harmed hfit hpos
    have hr : Registry ((w.log (hitEvent attacker (.player pid) a.info player.info)).modifyInfo
        (.player pid) (·.setHp (hpAfter a.info player.info))) :=
      (h.of_quiet (.log w _)).modifyInfo fun _ => ⟨rfl, rfl⟩
    simp only [applyDamage, ha, hv, ha_room, hroom, Bool.true_eq_false, or_self, if_false,
      if_neg hzero] at hok
    refine .hurt _ ?_ h₁ hlt
    rw [(broadcast_ok hr.toLinked hok).room]
    exact getElem?_setHp (w := w.log _) hplayer _

namespace Hunt

/-- A hit that is no more than a hit. -/
theorem blow_of_hit {attacker : ObjectRef} {w₁ : World} (h : Hunt map id pid p w mon player)
    (hplayers : w₁.room.players = w.room.players)
    (harmed : ∀ a, w₁.room.info? attacker = some a → Armed a)
    (hnot : ¬ mon.AimsAt pid p)
    (hhit : Hit attacker (.player pid) w₁ w') :
    Blow pid p mon player w'.room.players[pid]? := by
  have hplayer : w₁.room.players[pid]? = some player := by rw [hplayers, h.player]
  cases hhit with
  | missed => exact .missed hplayer hnot
  | @hurt a v _ ha hv hpos hq =>
    rw [GameRoom.info?_of_player hplayer] at hv
    obtain rfl := Option.some.inj hv
    obtain ⟨h₁, hlt⟩ := hpAfter_lt (harmed a ha) (h.sound.fit h.player_info) hpos
    refine .hurt _ ?_ h₁ hlt
    rw [hq.room]
    exact getElem?_setHp (w := w₁.log _) hplayer _
  | killed _ _ _ hq =>
    refine .dead (getElem?_players_eq_none ?_)
    rw [hq.room, World.room_erase, GameRoom.registered_erase]
    exact fun hstill => hstill.1 rfl

/-- **A strike hits the player**, if the monster has aimed at it. -/
theorem strike_blow {w₁ : World} (h : Hunt map id pid p w mon player) (hr : Registry w₁)
    (hm₁ : w₁.room.monsters[id]? = some { mon with info := mon.info.setState idle })
    (hplayers : w₁.room.players = w.room.players)
    (harmed : ∀ ref a, w₁.room.info? ref = some a → Armed a)
    (hok : strike P id mon w₁ = .ok w') :
    (∃ mon', w'.room.monsters[id]? = some mon' ∧ mon'.info = mon.info.setState idle ∧
      mon'.waitUntil = mon.waitUntil) ∧ Blow pid p mon player w'.room.players[pid]? := by
  have hlock : ∀ target, w₁.room.lock target = w.room.lock target := by
    intro target
    rw [GameRoom.lock, GameRoom.lock, hplayers]
  have hplayer : w₁.room.players[pid]? = some player := by rw [hplayers, h.player]
  have hreset : ∀ {w₂ : World}, w₂.room.monsters = w₁.room.monsters →
      (w' = w₂ ∨ w' = w₂.setTarget id none) → (∃ mon', w'.room.monsters[id]? = some mon' ∧
        mon'.info = mon.info.setState idle ∧ mon'.waitUntil = mon.waitUntil) ∧
        w'.room.players = w₂.room.players := by
    intro w₂ hmonsters hw'
    rw [← hmonsters] at hm₁
    rcases hw' with rfl | rfl
    · exact ⟨⟨_, hm₁, rfl, rfl⟩, rfl⟩
    · exact ⟨⟨_, World.getElem?_modifyMonster hm₁ _, rfl, rfl⟩, rfl⟩
  by_cases haim : mon.AimsAt pid p
  · have hself : w₁.room.findObject mon.info.objectid = some (.monster id) := by
      rw [h.registry.objectid_of_monster h.monster]
      exact hr.findObject (GameRoom.registered_of_info? (GameRoom.info?_of_monster hm₁))
    have hrooms : ¬ player.room ≠ mon.room := by rw [h.player_room, h.monster_room]; simp
    have hclose := (manhattan_sub_eq_one h.near).2 haim.2
    simp only [strike, haim.1, hlock, h.lock, if_neg hrooms, h.cell, if_pos hclose, hself] at hok
    obtain ⟨w₂, hhit, hforget⟩ := bind_eq_ok.1 hok
    have hself' : w₁.room.object? (.monster id) = some _ :=
      congrArg (Option.map Monster.toGameObject) hm₁
    have hblow : Blow pid p mon player w₂.room.players[pid]? :=
      applyDamage_blow hr hself' h.monster_room (harmed _ _ (GameRoom.info?_of_object? hself'))
        hplayer h.player_room (h.sound.fit h.player_info) hhit
    have hw' : w' = w₂ ∨ w' = w₂.setTarget id none := by
      split at hforget
      · exact .inr (Except.ok.inj hforget).symm
      · exact .inl (Except.ok.inj hforget).symm
    obtain ⟨hmonster, hsame⟩ := hreset (applyDamage_ok hr hhit).monsters hw'
    rw [hsame]
    exact ⟨hmonster, hblow⟩
  · rcases strike_cases hok with hw' | ⟨self, k, other, w₂, hlock', -, -, hhit, hw'⟩
    · obtain ⟨hmonster, hsame⟩ := hreset rfl hw'
      rw [hsame]
      exact ⟨hmonster, .missed hplayer haim⟩
    · rw [hlock] at hlock'
      obtain ⟨htarget, -⟩ := h.eq_of_lock hlock'
      obtain rfl := Option.some.inj (htarget.symm.trans (GameRoom.lock_eq_some hlock').1)
      have hit := applyDamage_ok hr hhit
      obtain ⟨hmonster, hsame⟩ := hreset hit.monsters hw'
      rw [hsame]
      exact ⟨hmonster, h.blow_of_hit hplayers (harmed self) haim hit⟩

theorem updateSkill_blow (h : Hunt map id pid p w mon player)
    (hok : updateSkill P now id w = .ok w') : now < mon.waitUntil ∧ w' = w ∨
      mon.waitUntil ≤ now ∧ (∃ mon', w'.room.monsters[id]? = some mon' ∧
        mon'.info = mon.info.setState idle ∧ mon'.waitUntil = mon.waitUntil) ∧
        Blow pid p mon player w'.room.players[pid]? := by
  simp only [updateSkill, h.monster, if_pos h.monster_room] at hok
  split at hok
  · rename_i hearly
    exact .inl ⟨hearly, (Except.ok.inj hok).symm⟩
  · rename_i hdue
    obtain ⟨w₁, hstate, hok⟩ := bind_eq_ok.1 hok
    obtain ⟨w₂, hstrike, hsay⟩ := bind_eq_ok.1 hok
    have hedits := setState_silent_edits hstate
    have h₁ := hedits.registry h.registry
    have hblow := h.strike_blow h₁ (setState_own h.registry h.monster hstate).1
      (setState_aside h.registry hstate).players
      (fun _ _ ha => ((hedits.sound h.sound).1.fit ha).armed) hstrike
    have hroom : w'.room = w₂.room :=
      broadcastMove_room ((strike_edits h₁ hstrike).registry h₁) hsay
    refine .inr ⟨UInt64.not_lt.1 hdue, ?_⟩
    rw [hroom]
    exact hblow

end Hunt

/-! ## What is left to do -/

/-- The steps to the player and the hp that are left, and one thing more for a monster that is about
to strike but has not aimed. -/
def toDo (mon : Monster) (pid : ObjectId) (player : Player) : ℕ :=
  mon.info.getCellPos.gap player.info.getCellPos - 1 + player.info.hp.toInt.toNat +
    if mon.info.state = skill ∧ ¬ mon.AimsAt pid player.info.getCellPos then 1 else 0

theorem toDo_of_ne_skill (h : mon.info.state ≠ skill) : toDo mon pid player =
    mon.info.getCellPos.gap player.info.getCellPos - 1 + player.info.hp.toInt.toNat := by
  rw [toDo, if_neg fun hskill => h hskill.1, Nat.add_zero]

theorem toDo_of_aimsAt (h : mon.AimsAt pid player.info.getCellPos) :
    toDo mon pid player = player.info.hp.toInt.toNat := by
  rw [toDo, if_neg fun hskill => hskill.2 h, h.2, Nat.sub_self, Nat.zero_add, Nat.add_zero]

theorem toDo_le (mon : Monster) (pid : ObjectId) (player : Player) : toDo mon pid player ≤
    mon.info.getCellPos.gap player.info.getCellPos - 1 + player.info.hp.toInt.toNat + 1 := by
  unfold toDo
  split <;> omega

theorem phaseOf_ne_resting {state : Int32} (h : state = move ∨ state = skill) :
    phaseOf state ≠ .resting := by
  rcases h with rfl | rfl <;> decide

namespace Hunt

theorem hp_pos (h : Hunt map id pid p w mon player) : 1 ≤ player.info.hp.toInt :=
  toInt_hp_pos (h.sound.fit h.player_info).alive

theorem timer_eq {state : Int32} (hstate : mon.info.state = state) :
    mon.timer = ⟨phaseOf state, mon.waitUntil.toNat⟩ := by rw [Monster.timer, hstate]

/-- What is left to do before the turn of a monster and after it. -/
def Toils (w w' : World) (id pid : ObjectId) (t : ℕ) (mon : Monster) (player : Player) : Prop :=
  w'.room.players[pid]? = none ∨ ∃ mon' player', w'.room.monsters[id]? = some mon' ∧
    w'.room.players[pid]? = some player' ∧ mon'.info.state ∈ [idle, move, skill] ∧
    (mon'.info.getCellPos = mon.info.getCellPos ∨
      FirstStep w.room.tilemap player.info.getCellPos mon.info.getCellPos mon'.info.getCellPos) ∧
    Pacing.Toil 1000 mon.timer (toDo mon pid player) t mon'.timer (toDo mon' pid player')

theorem toils_idle (h : Hunt map id pid p w mon player)
    (hopen : ∀ x, map.Inside x → map.Walkable x) (hp : map.Inside p)
    (hnow : now.toNat + 1000 < 2 ^ 64) (hidle : mon.info.state = idle)
    (hok : updateIdle P fuel now id w = .ok w') : Toils w w' id pid now.toNat mon player := by
  have hplayer : w'.room.players[pid]? = some player := by
    rw [(updateIdle_aside h.registry hok).players, h.player]
  have hne : mon.info.state ≠ skill := by rw [hidle]; decide
  have hhp := h.hp_pos
  obtain ⟨mon', hm', hroused⟩ := h.updateIdle_roused hopen hp hok
  cases hroused with
  | aimed hbeside hstate hcell htarget hwait =>
    have haim : mon'.AimsAt pid player.info.getCellPos := by
      refine ⟨htarget, ?_⟩
      rw [hcell, h.cell, hbeside]
    have htodo : toDo mon pid player = toDo mon' pid player := by
      rw [toDo_of_ne_skill hne, toDo_of_aimsAt haim, h.cell, hbeside, Nat.sub_self, Nat.zero_add]
    refine .inr ⟨mon', player, hm', hplayer, by rw [hstate]; decide, .inl hcell, ?_⟩
    rw [timer_eq hidle, timer_eq hstate, hwait, toNat_add_period hnow, htodo, phaseOf_idle,
      phaseOf_skill]
    refine .aim _ _ ?_
    rw [toDo_of_aimsAt haim]
    omega
  | stepped hstep hstate hwait =>
    have hcloser := hstep.gap_lt hopen h.inside hp
    have hpos : p.gap mon'.info.getCellPos ≠ 0 := fun hzero =>
      hstep.step.2.2.1 (Vec2Int.gap_eq_zero.1 hzero).symm
    have hne' : mon'.info.state ≠ skill := by rw [hstate]; decide
    refine .inr ⟨mon', player, hm', hplayer, by rw [hstate]; decide, .inr ?_, ?_⟩
    · rw [h.duel.tilemap, h.cell]
      exact hstep
    · rw [timer_eq hidle, timer_eq hstate, hwait, toNat_add_period hnow, toDo_of_ne_skill hne,
        toDo_of_ne_skill hne', h.cell, phaseOf_idle, phaseOf_move,
        Vec2Int.gap_comm mon.info.getCellPos, Vec2Int.gap_comm mon'.info.getCellPos]
      exact .step _ _ (by omega)

/-- A monster that waits. -/
theorem toils_wait (h : Hunt map id pid p w mon player)
    (hstate : mon.info.state = move ∨ mon.info.state = skill) (hearly : now < mon.waitUntil) :
    Toils w w id pid now.toNat mon player :=
  .inr ⟨mon, player, h.monster, h.player, h.state, .inl rfl,
    .wait (phaseOf_ne_resting hstate) (UInt64.lt_iff_toNat_lt.1 hearly) _⟩

/-- A monster that is idle again, where it was. -/
theorem toils_rested {mon' : Monster} {player' : Player} (hm' : w'.room.monsters[id]? = some mon')
    (hinfo : mon'.info = mon.info.setState idle) (hwait : mon'.waitUntil = mon.waitUntil)
    (hplayer : w'.room.players[pid]? = some player') {t : ℕ}
    (htoil : Pacing.Toil 1000 mon.timer (toDo mon pid player) t ⟨.resting, mon.waitUntil.toNat⟩
      (mon.info.getCellPos.gap player'.info.getCellPos - 1 + player'.info.hp.toInt.toNat)) :
    Toils w w' id pid t mon player := by
  have hidle : mon'.info.state = idle := by rw [hinfo]; rfl
  have hne : mon'.info.state ≠ skill := by rw [hidle]; decide
  have hcell : mon'.info.getCellPos = mon.info.getCellPos := by rw [hinfo]; rfl
  refine .inr ⟨mon', player', hm', hplayer, by rw [hidle]; decide, .inl hcell, ?_⟩
  rw [timer_eq hidle, phaseOf_idle, hwait, toDo_of_ne_skill hne, hcell]
  exact htoil

theorem toils_move (h : Hunt map id pid p w mon player) (hmove : mon.info.state = move)
    (hok : updateMove P now id w = .ok w') : Toils w w' id pid now.toNat mon player := by
  rcases h.updateMove_rests hok with ⟨hearly, rfl⟩ | ⟨hdue, mon', hm', hinfo, hwait⟩
  · exact h.toils_wait (.inl hmove) hearly
  · have hplayer : w'.room.players[pid]? = some player := by
      rw [(updateMove_aside h.registry hok).players, h.player]
    have hne : mon.info.state ≠ skill := by rw [hmove]; decide
    refine toils_rested hm' hinfo hwait hplayer ?_
    rw [timer_eq hmove, phaseOf_move, toDo_of_ne_skill hne]
    exact .rest (UInt64.le_iff_toNat_le.1 hdue) _

theorem toils_skill (h : Hunt map id pid p w mon player) (hskill : mon.info.state = skill)
    (hok : updateSkill P now id w = .ok w') : Toils w w' id pid now.toNat mon player := by
  rcases h.updateSkill_blow hok with ⟨hearly, rfl⟩ | ⟨hdue, ⟨mon', hm', hinfo, hwait⟩, hblow⟩
  · exact h.toils_wait (.inr hskill) hearly
  · have hdue := UInt64.le_iff_toNat_le.1 hdue
    have htimer : mon.timer = ⟨.aiming, mon.waitUntil.toNat⟩ := by
      rw [timer_eq hskill, phaseOf_skill]
    cases hblow with
    | dead hgone => exact .inl hgone
    | hurt hp hplayer hpos hlt =>
      refine toils_rested hm' hinfo hwait hplayer ?_
      rw [htimer]
      refine .strike hdue ?_
      have hhp := Int32.lt_iff_toInt_lt.1 hlt
      have hpos := Int32.le_iff_toInt_le.1 hpos
      have hone : (1 : Int32).toInt = 1 := by decide
      change mon.info.getCellPos.gap player.info.getCellPos - 1 + hp.toInt.toNat < _
      rw [toDo]
      omega
    | missed hplayer hnot =>
      refine toils_rested hm' hinfo hwait hplayer ?_
      rw [htimer]
      refine .strike hdue ?_
      rw [← h.cell] at hnot
      rw [toDo, if_pos ⟨hskill, hnot⟩]
      exact Nat.lt_succ_self _

/-- **A turn of the monster is a turn of work**, if it does not kill the player. -/
theorem turn (h : Hunt map id pid p w mon player) (hopen : ∀ x, map.Inside x → map.Walkable x)
    (hp : map.Inside p) (hnow : now.toNat + 1000 < 2 ^ 64)
    (hok : updateMonster P fuel now id w = .ok w') : w'.room.players[pid]? = none ∨
      ∃ mon' player', Hunt map id pid p w' mon' player' ∧
        Pacing.Toil 1000 mon.timer (toDo mon pid player) now.toNat mon'.timer
          (toDo mon' pid player') := by
  have htoils : Toils w w' id pid now.toNat mon player := by
    have hstate := h.state
    simp only [List.mem_cons, List.not_mem_nil, or_false] at hstate
    simp only [updateMonster, h.monster_info] at hok
    rcases hstate with hidle | hmove | hskill
    · rw [if_pos hidle] at hok
      exact h.toils_idle hopen hp hnow hidle hok
    · rw [if_neg (by rw [hmove]; decide), if_pos hmove] at hok
      exact h.toils_move hmove hok
    · rw [if_neg (by rw [hskill]; decide), if_neg (by rw [hskill]; decide), if_pos hskill] at hok
      exact h.toils_skill hskill hok
  have hedits := updateMonster_edits h.registry hok
  rcases htoils with hgone | ⟨mon', player', hm', hplayer', hstate', hcell', htoil⟩
  · exact .inl hgone
  · have hplace : map.Inside mon'.info.getCellPos ∧ mon'.info.getCellPos.gap p < 10 ∧
        mon'.info.getCellPos ≠ p := by
      rcases hcell' with hsame | hstep
      · rw [hsame]
        exact ⟨h.inside, h.near, h.ne⟩
      · rw [h.duel.tilemap, h.cell] at hstep
        have hcloser := hstep.gap_lt hopen h.inside hp
        have hnear := h.near
        rw [Vec2Int.gap_comm p, Vec2Int.gap_comm p] at hcloser
        exact ⟨hstep.step.2.1.inside, by omega, hstep.step.2.2.1⟩
    refine .inr ⟨mon', player', ⟨hedits.registry h.registry, (hedits.sound h.sound).1,
      hedits.sameHomes.housed h.housed, (updateMonster_turn h.registry hok).duel h.duel, hm',
      hplayer', hstate', hplace.1, hplace.2.1, hplace.2.2⟩, htoil⟩

end Hunt

/-! ## The steps of the server -/

/-- In a room with one monster an update is a turn of it. -/
theorem updateMonster_of_update {clock : ObjectId → UInt64} (hmem : id ∈ w.room.monsters)
    (honly : ∀ k ∈ w.room.monsters, k = id) (hok : update P fuel clock w = .ok w') :
    updateMonster P fuel (clock id) id w = .ok w' := by
  have hkeys : w.room.monsters.keys = [id] := by
    have hall : ∀ k ∈ w.room.monsters.keys, k = id := fun k hk =>
      honly k (ExtTreeMap.mem_keys.1 hk)
    have hrep := List.eq_replicate_of_mem hall
    have hnodup : w.room.monsters.keys.Nodup := ExtTreeMap.nodup_keys
    have hpos := List.length_pos_of_mem (ExtTreeMap.mem_keys.2 hmem)
    rw [hrep, List.nodup_replicate] at hnodup
    rw [hrep, Nat.le_antisymm hnodup hpos, List.replicate_one]
  rw [update, hkeys, updateFrom, if_pos hmem] at hok
  obtain ⟨w₁, hturn, hrest⟩ := bind_eq_ok.1 hok
  split at hrest
  · obtain rfl := Except.ok.inj hrest
    exact hturn
  · cases hrest

namespace Hunt

/-- **A step of the server is a turn of work or makes the work no longer**, if it leaves the player
in the room. -/
theorem serverStep (h : Hunt map id pid p w mon player)
    (hopen : ∀ x, map.Inside x → map.Walkable x) (hp : map.Inside p) {ev : ServerEvent}
    (hs : ServerStep P w ev w') (hown : NamesOwnPlayer w ev)
    (hfits : ∀ t, ev.tick? id = some t → t + 1000 < 2 ^ 64)
    (hduel : Duel map id pid p w'.room) (hthere : id ∈ w'.room.monsters) :
    w'.room.players[pid]? = none ∨ ∃ mon' player', Hunt map id pid p w' mon' player' ∧
      (ev.tick? id = none ∧ mon'.timer = mon.timer ∧
        toDo mon' pid player' ≤ toDo mon pid player ∨
      ∃ t, ev.tick? id = some t ∧ Pacing.Toil 1000 mon.timer (toDo mon pid player) t mon'.timer
        (toDo mon' pid player')) := by
  cases htick : ev.tick? id with
  | some t =>
    cases hs with
    | update hok =>
      obtain rfl := Option.some.inj htick
      have hmem := ExtTreeMap.mem_iff_isSome_getElem?.2 (Option.isSome_of_eq_some h.monster)
      have hturn := updateMonster_of_update hmem (fun k hk => ?_) hok
      · rcases h.turn hopen hp (hfits _ rfl) hturn with hgone | ⟨mon', player', hnext, htoil⟩
        · exact .inl hgone
        · exact .inr ⟨mon', player', hnext, .inr ⟨_, rfl, htoil⟩⟩
      · obtain ⟨info, hinfo⟩ := Option.isSome_iff_exists.1 (GameRoom.registered_monster.2 hk)
        exact h.duel.monster k _ (GameRoom.cells_of_info? hinfo)
    | _ => cases htick
  | none =>
    cases hplayer' : w'.room.players[pid]? with
    | none => exact .inl rfl
    | some player' =>
      obtain ⟨mon', hm'⟩ := Option.isSome_iff_exists.1
        (ExtTreeMap.mem_iff_isSome_getElem?.1 hthere)
      obtain ⟨_, hp', hm, rfl⟩ := hs.undisturbed h.registry hown htick mon' hm'
      obtain rfl := Option.some.inj (hm.symm.trans h.monster)
      have hweak := hs.weakens h.registry h.sound
      have hinfo' := GameRoom.info?_of_player hplayer'
      obtain ⟨info, hinfo, hle⟩ := hweak.hp_le hinfo'
        (h.registry.lt_idGenerator (GameRoom.registered_of_info? h.player_info))
      obtain rfl := Option.some.inj (hinfo.symm.trans h.player_info)
      have hcell' : player'.info.getCellPos = p :=
        (hduel.player pid _ (GameRoom.cells_of_info? hinfo')).2
      refine .inr ⟨_, player', ⟨hs.registry h.registry, hs.sound h.registry h.sound,
        hs.housed h.registry h.housed, hduel, hm', hplayer', h.state, h.inside, h.near, h.ne⟩,
        .inl ⟨rfl, rfl, ?_⟩⟩
      have hle := Int32.le_iff_toInt_le.1 hle
      rw [toDo, toDo, hcell', h.cell]
      exact Nat.add_le_add_right (Nat.add_le_add_left (Int.toNat_le_toNat hle) _) _

end Hunt

/-! ## The run -/

/-- In a run of `n` steps of the server, in which packets name the player of their own session, the
monster and the player are alone, and the player, as long as it is there, is on `p`. -/
structure StandsStill (P : Platform) (map : Tilemap) (id pid : ObjectId) (p : Vec2Int) (n : ℕ)
    (w : ℕ → World) (ev : ℕ → ServerEvent) : Prop where
  start : ServerReachable P map (w 0)
  steps : ∀ i < n, ServerStep P (w i) (ev i) (w (i + 1))
  own : ∀ i < n, NamesOwnPlayer (w i) (ev i)
  duel : ∀ i ≤ n, Duel map id pid p (w i).room
  there : ∀ i ≤ n, id ∈ (w i).room.monsters

/-- The room is updated no later than `T + δ`, and then again and again no later than `δ` after the
last time; and the clock is nowhere near its end. -/
structure Prompt (δ T : ℕ) (id : ObjectId) (n : ℕ) (ev : ℕ → ServerEvent) : Prop where
  fits : ∀ i < n, ∀ t, (ev i).tick? id = some t → t + 1000 < 2 ^ 64
  prompt : ∀ i < n, ∀ t, (ev i).tick? id = some t →
    t ≤ Pacing.latest (fun k => (ev k).tick? id) T i + δ

/-- The timer of the monster and what it has to do, while both are in the room. -/
def World.task? (w : World) (id pid : ObjectId) : Option (Pacing.Timer ℕ × ℕ) :=
  w.room.monsters[id]?.bind fun mon =>
    w.room.players[pid]?.map fun player => (mon.timer, toDo mon pid player)

theorem World.task?_of_some (hm : w.room.monsters[id]? = some mon)
    (hplayer : w.room.players[pid]? = some player) :
    w.task? id pid = some (mon.timer, toDo mon pid player) := by
  rw [task?, hm, hplayer]
  rfl

theorem World.task?_of_none (hplayer : w.room.players[pid]? = none) : w.task? id pid = none := by
  rw [task?, hplayer]
  cases w.room.monsters[id]? <;> rfl

namespace StandsStill

variable {n : ℕ} {ws : ℕ → World} {ev : ℕ → ServerEvent} {i j : ℕ}

theorem reachable (h : StandsStill P map id pid p n ws ev) (hi : i ≤ n) :
    ServerReachable P map (ws i) := by
  induction i with
  | zero => exact h.start
  | succ i ih => exact (ih (by omega)).tail trivial (h.steps i hi)

/-- Ids are not given again. -/
theorem stays_gone (h : StandsStill P map id pid p n ws ev) (hi : i < n)
    (hid : pid < (ws i).idGenerator) (hgone : (ws i).room.players[pid]? = none) :
    (ws (i + 1)).room.players[pid]? = none := by
  obtain ⟨hr, hsound⟩ := sound_of_serverRun (h.reachable hi.le)
  cases hplayer : (ws (i + 1)).room.players[pid]? with
  | none => rfl
  | some player =>
    have hweak := (h.steps i hi).weakens hr hsound
    obtain ⟨info, hinfo, -⟩ := hweak.hp_le (GameRoom.info?_of_player hplayer) hid
    rw [GameRoom.info?_player, hgone] at hinfo
    cases hinfo

/-- The hunt goes on until the player is gone. -/
theorem hunt (h : StandsStill P map id pid p n ws ev) (hopen : ∀ x, map.Inside x → map.Walkable x)
    (hp : map.Inside p) (hfits : ∀ i < n, ∀ t, (ev i).tick? id = some t → t + 1000 < 2 ^ 64)
    (h₀ : Hunt map id pid p (ws 0) mon player) (hi : i ≤ n) :
    pid < (ws i).idGenerator ∧ ((ws i).room.players[pid]? = none ∨
      ∃ mon player, Hunt map id pid p (ws i) mon player) := by
  induction i with
  | zero =>
    have hreg := GameRoom.registered_of_info? h₀.player_info
    exact ⟨h₀.registry.lt_idGenerator hreg, .inr ⟨mon, player, h₀⟩⟩
  | succ i ih =>
    obtain ⟨hid, hih⟩ := ih (by omega)
    have hr := (sound_of_serverRun (h.reachable (by omega : i ≤ n))).1
    refine ⟨hid.trans_le ((h.steps i hi).idGenerator_le hr), ?_⟩
    rcases hih with hgone | ⟨mon, player, hhunt⟩
    · exact .inl (h.stays_gone hi hid hgone)
    · exact (hhunt.serverStep hopen hp (h.steps i hi) (h.own i hi) (hfits i hi)
        (h.duel (i + 1) hi) (h.there (i + 1) hi)).imp_right fun ⟨mon', player', hnext, _⟩ =>
          ⟨mon', player', hnext⟩

/-- **The run is a run of work.** -/
theorem work (h : StandsStill P map id pid p n ws ev) (hopen : ∀ x, map.Inside x → map.Walkable x)
    (hp : map.Inside p) {δ T : ℕ} (hclock : Prompt δ T id n ev)
    (h₀ : Hunt map id pid p (ws 0) mon player) :
    Pacing.Work 1000 δ T n (fun i => (ws i).task? id pid) (fun i => (ev i).tick? id) where
  prompt := hclock.prompt
  next i hi b K' hb := by
    obtain ⟨hid, hgone | ⟨mon, player, hhunt⟩⟩ := h.hunt hopen hp hclock.fits h₀ hi.le
    · rw [World.task?_of_none (h.stays_gone hi hid hgone)] at hb
      cases hb
    · refine ⟨_, _, World.task?_of_some hhunt.monster hhunt.player, ?_⟩
      rcases hhunt.serverStep hopen hp (h.steps i hi) (h.own i hi) (hclock.fits i hi)
        (h.duel (i + 1) hi) (h.there (i + 1) hi) with hgone | ⟨mon', player', hnext, hstep⟩
      · rw [World.task?_of_none hgone] at hb
        cases hb
      · rw [World.task?_of_some hnext.monster hnext.player] at hb
        obtain ⟨rfl, rfl⟩ := Prod.mk.inj (Option.some.inj hb)
        exact hstep

end StandsStill

/-- **Whoever stands still is caught.** On open ground, if the monster is near enough to the player,
not on its cell and in one of its three states, and the room is updated at least every `δ`
milliseconds, the player is gone after an update for which there is a time of `1000 + 2 * δ` for
each step to the player and each of its hp, and `δ` more. -/
theorem caught_of_run (P : Platform) (map : Tilemap) (id pid : ObjectId) (p : Vec2Int) (n : ℕ)
    (w : ℕ → World) (ev : ℕ → ServerEvent) (hrun : StandsStill P map id pid p n w ev)
    (hopen : ∀ x, map.Inside x → map.Walkable x) (hp : map.Inside p) (mon : Monster)
    (player : Player) (hmon : (w 0).room.monsters[id]? = some mon)
    (hplayer : (w 0).room.players[pid]? = some player)
    (hstate : mon.info.state ∈ [idle, move, skill]) (hinside : map.Inside mon.info.getCellPos)
    (hnear : mon.info.getCellPos.gap p < 10) (hne : mon.info.getCellPos ≠ p) (δ T : ℕ)
    (hclock : Prompt δ T id n ev) (hwait : mon.waitUntil.toNat ≤ T) (i t : ℕ)
    (ht : (ev i).tick? id = some t)
    (hlate : T + δ + (mon.info.getCellPos.gap p - 1 + player.info.hp.toInt.toNat) *
      (δ + 1000 + δ) < t) :
    ∀ j, i < j → j ≤ n → pid ∉ (w j).room.players := by
  intro j hij hj
  obtain ⟨hr, hsound⟩ := sound_of_serverRun hrun.start
  have h₀ : Hunt map id pid p (w 0) mon player := ⟨hr, hsound, (housed_of_serverRun hrun.start).2,
    hrun.duel 0 (Nat.zero_le n), hmon, hplayer, hstate, hinside, hnear, hne⟩
  have hwork := hrun.work hopen hp hclock h₀
  have hK : toDo mon pid player ≤ mon.info.getCellPos.gap p - 1 + player.info.hp.toInt.toNat ∨
      mon.timer.phase = .aiming ∧ toDo mon pid player ≤
        mon.info.getCellPos.gap p - 1 + player.info.hp.toInt.toNat + 1 := by
    rw [← h₀.cell]
    by_cases hskill : mon.info.state = skill
    · refine .inr ⟨?_, toDo_le mon pid player⟩
      rw [Hunt.timer_eq hskill, phaseOf_skill]
    · exact .inl (toDo_of_ne_skill hskill).le
  have hdue : Pacing.due 1000 δ mon.timer (toDo mon pid player) T ≤ T + δ +
      (mon.info.getCellPos.gap p - 1 + player.info.hp.toInt.toNat) * (δ + 1000 + δ) :=
    Pacing.due_le_of_le (Nat.zero_le δ) (Nat.zero_le _) le_rfl hwait hK
  have hover := hwork.over (Nat.zero_le δ) (Nat.zero_le _)
    (World.task?_of_some h₀.monster h₀.player) ht (hdue.trans_lt hlate) hij hj
  intro hmem
  obtain ⟨player', hplayer'⟩ := Option.isSome_iff_exists.1
    (ExtTreeMap.mem_iff_isSome_getElem?.1 hmem)
  obtain ⟨mon', hmon'⟩ := Option.isSome_iff_exists.1
    (ExtTreeMap.mem_iff_isSome_getElem?.1 (hrun.there j hj))
  cases hover.symm.trans (World.task?_of_some hmon' hplayer')

/-! ## A short hunt -/

theorem walkable_of_inside_openMap (x : Vec2Int) (h : openMap.Inside x) : openMap.Walkable x := by
  have hten : (10 : Int32).toInt = 10 := by decide
  obtain ⟨hx, hxs, hy, hys⟩ := Tilemap.inside_iff.1 h
  have hsize : openMap.mapSize = ⟨10, 10⟩ := rfl
  rw [hsize, hten] at hxs hys
  refine ⟨{}, ?_, rfl⟩
  have hin : ¬ (x.x < 0 ∨ openMap.mapSize.x ≤ x.x ∨ x.y < 0 ∨ openMap.mapSize.y ≤ x.y) := by
    simp only [not_or, Int32.not_lt, Int32.not_le]
    exact ⟨h.1, h.2.1, h.2.2.1, h.2.2.2⟩
  rw [Tilemap.getTileAt, if_neg hin]
  simp only [openMap, List.getElem?_replicate]
  rw [if_pos (by omega)]
  simp only [Option.bind_eq_bind, Option.bind_some, List.getElem?_replicate]
  rw [if_pos (by omega)]

/-- The first player goes near the first monster and has its hp cut to 1. -/
def weakensTo : CMove := ⟨((enteringPlayer 2 0).info.setCellPos ⟨8, 6⟩).setMaxhp 1⟩

/-- The server after the first connection. -/
def beforeHurt : World :=
  Result.world (processConnect (.always .accepted) 0 (World.init openMap))

/-- The server after that packet. -/
def beforeHunt : World := Result.world (receiveCMove (.always .accepted) 0 weakensTo beforeHurt)

theorem serverReachable_beforeHunt : ServerReachable (.always .accepted) openMap beforeHunt := by
  have hconnect : ServerStep (.always .accepted) (World.init openMap) (.processConnect 0)
      beforeHurt := .processConnect rfl rfl
  have hreceive : ServerStep (.always .accepted) beforeHurt (.receiveCMove 0 weakensTo)
      beforeHunt := .receiveCMove rfl
  exact .tail (.single trivial hconnect) trivial hreceive

/-- An update a second, and meanwhile the player says again where it is. -/
def huntEvent : ℕ → ServerEvent
  | 1 => .receiveCMove 0 weakensTo
  | i => .update fun _ => 1000 * (i - 1).toUInt64

def huntWorld : ℕ → World
  | 0 => beforeHunt
  | i + 1 => (eventResult (.always .accepted) 200 (huntWorld i) (huntEvent i)).world

theorem Duel.of_forall_keys {m : Tilemap} (htilemap : r.tilemap = m)
    (hmonsters : ∀ k ∈ r.monsters.keys, k = id)
    (hplayers : ∀ k ∈ r.players.keys, k = pid ∧ r.cells (.player k) = some p) :
    Duel m id pid p r := by
  refine ⟨htilemap, fun k c hc => ?_, fun k c hc => ?_⟩
  all_goals obtain ⟨info, hinfo, -⟩ := GameRoom.cells_eq_some.1 hc
  · exact hmonsters k (ExtTreeMap.mem_keys.2
      (GameRoom.registered_monster.1 (GameRoom.registered_of_info? hinfo)))
  · obtain ⟨hk, hcell⟩ := hplayers k (ExtTreeMap.mem_keys.2
      (GameRoom.registered_player.1 (GameRoom.registered_of_info? hinfo)))
    exact ⟨hk, Option.some.inj (hc.symm.trans hcell)⟩

theorem standsStill_hunt :
    StandsStill (.always .accepted) openMap 1 2 ⟨8, 6⟩ 10 huntWorld huntEvent where
  start := serverReachable_beforeHunt
  steps i hi := by
    have hok : ∀ i < 10, (eventResult (.always .accepted) 200 (huntWorld i)
        (huntEvent i)).isOk = true := by decide +kernel
    refine serverStep_of_isOk (fun s hs => ?_) (hok i hi)
    unfold huntEvent at hs
    split at hs <;> cases hs
  own i _ := by
    have hplayer : ((huntWorld 1).sessions 0).player = some 2 := by decide +kernel
    unfold huntEvent
    split
    · exact hplayer
    · trivial
  duel i hi := by
    have hall : ∀ i ≤ 10, (huntWorld i).room.tilemap = openMap ∧
        (∀ k ∈ (huntWorld i).room.monsters.keys, k = 1) ∧
        ∀ k ∈ (huntWorld i).room.players.keys,
          k = 2 ∧ (huntWorld i).room.cells (.player k) = some ⟨8, 6⟩ := by decide +kernel
    obtain ⟨htilemap, hmonsters, hplayers⟩ := hall i hi
    exact .of_forall_keys htilemap hmonsters hplayers
  there i hi := by
    have hall : ∀ i ≤ 10, 1 ∈ (huntWorld i).room.monsters := by decide +kernel
    exact hall i hi

theorem prompt_hunt : Prompt 1000 0 1 10 huntEvent where
  fits := by decide
  prompt := by decide

theorem caught_of_run_hunt :
    2 ∈ (huntWorld 4).room.players ∧ 2 ∉ (huntWorld 10).room.players := by
  refine ⟨by decide +kernel, ?_⟩
  have hmon : (huntWorld 0).room.monsters[1]? = some { firstMonster with room := true } := by
    decide +kernel
  obtain ⟨player, hplayer⟩ : ∃ player, (huntWorld 0).room.players[2]? = some player :=
    Option.isSome_iff_exists.1 (by decide +kernel)
  have hhp : player.info.hp = 1 := by
    have hall : ((huntWorld 0).room.players[2]?).all (·.info.hp = 1) = true := by decide +kernel
    rw [hplayer] at hall
    exact of_decide_eq_true hall
  exact caught_of_run (.always .accepted) openMap 1 2 ⟨8, 6⟩ 10 huntWorld huntEvent
    standsStill_hunt walkable_of_inside_openMap (by simp only [Tilemap.Inside]; decide) _ player
    hmon hplayer (by decide) (by simp only [Tilemap.Inside]; decide) (by decide) (by decide) 1000 0
    prompt_hunt (by decide) 9 8000 rfl (by rw [hhp]; decide) 10 (by decide) le_rfl

end Zelda.Server
