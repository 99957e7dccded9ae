import Zelda.Server.Deeds
import Zelda.Server.Ownership

/-!
# The balance of hits

Every hit is in the trace with the hp that the victim had and the damage, so what an object has and
what all hits have taken from it can be added up (`World.balance`). A hit moves from the one to the
other and nothing is lost (`Hit.balance`); a packet that asks for a low maximum, and leaving, only
take away.

* `wounds_of_run`: nothing loses more than it started with, nor is hit more often.
* `balance_of_run`: where no packet asks for a low maximum, the balance of every object is what it
  started with, and the monster is gone exactly when the hits have taken all it had.
-/

namespace Zelda.Server

open Protocol Std

variable {P : Platform} {w w' w₁ : World} {s : SessionId} {id : ObjectId} {ref : ObjectRef}
  {info a v : ObjectInfo} {pkt : CMove} {tilemap : Tilemap} {trace : List Event}

/-! ## What hits take -/

/-- What a hit takes from an object: not more than it has. -/
def Event.loss (ref : ObjectRef) : Event → ℤ
  | .applyDamage _ victim _ _ hp damage => if victim = ref then min hp.toInt damage.toInt else 0
  | _ => 0

/-- The event is a hit on the object. -/
def Event.isHitOn (ref : ObjectRef) : Event → Bool
  | .applyDamage _ victim _ _ _ _ => victim = ref
  | _ => false

/-- What all hits have taken from an object. -/
def lost (ref : ObjectRef) (trace : List Event) : ℤ := (trace.map (Event.loss ref)).sum

/-- How often an object was hit. -/
def hits (ref : ObjectRef) (trace : List Event) : ℕ := trace.countP (Event.isHitOn ref)

/-- The hp of an object, which is 0 if it is not there. -/
def World.hpOf (w : World) (ref : ObjectRef) : ℤ :=
  ((w.room.info? ref).map (·.hp.toInt)).getD 0

/-- What an object has, and what hits have taken from it. -/
def World.balance (w : World) (ref : ObjectRef) : ℤ := w.hpOf ref + lost ref w.trace

/-- What a player and a monster start with. -/
def ObjectRef.startHp : ObjectRef → ℤ
  | .player _ => 100
  | .monster _ => 50

/-- No hit is among the events. -/
def Bloodless (evs : List Event) : Prop := ∀ e ∈ evs, ∀ ref, e.isHitOn ref = false

theorem Event.loss_of_not_isHitOn {e : Event} (h : e.isHitOn ref = false) : e.loss ref = 0 := by
  cases e with
  | send | processSkill => rfl
  | applyDamage => exact if_neg (of_decide_eq_false h)

theorem lost_append (trace evs : List Event) :
    lost ref (trace ++ evs) = lost ref trace + lost ref evs := by
  rw [lost, List.map_append, List.sum_append]
  rfl

theorem hits_append (trace evs : List Event) :
    hits ref (trace ++ evs) = hits ref trace + hits ref evs := List.countP_append

theorem Bloodless.lost {evs : List Event} (h : Bloodless evs) : lost ref evs = 0 :=
  List.sum_eq_zero fun x hx => by
    obtain ⟨e, he, rfl⟩ := List.mem_map.1 hx
    exact Event.loss_of_not_isHitOn (h e he ref)

theorem Bloodless.hits {evs : List Event} (h : Bloodless evs) : hits ref evs = 0 :=
  List.countP_eq_zero.2 fun e he => by simp [h e he ref]

theorem bloodless_nil : Bloodless [] := fun _ he => absurd he List.not_mem_nil

theorem bloodless_skill (id : ObjectId) : Bloodless [.processSkill id] := by
  intro e he ref
  rw [List.mem_singleton.1 he]
  rfl

theorem bloodless_send (s : SessionId) (msg : ServerPacket) : Bloodless [.send s msg] := by
  intro e he ref
  rw [List.mem_singleton.1 he]
  rfl

theorem bloodless_announce (r : GameRoom) (msg : ServerPacket) : Bloodless (r.announce msg) := by
  intro e he ref
  obtain ⟨s, -, rfl⟩ := List.mem_map.1 he
  rfl

theorem Bloodless.append {evs evs' : List Event} (h : Bloodless evs) (h' : Bloodless evs') :
    Bloodless (evs ++ evs') := fun e he => (List.mem_append.1 he).elim (h e) (h' e)

theorem lost_log (w : World) (e : Event) (ref : ObjectRef) :
    lost ref (w.log e).trace = lost ref w.trace + e.loss ref := by
  rw [World.trace_log, lost_append, lost, lost, List.map_singleton, List.sum_singleton]

theorem hits_log (w : World) (e : Event) (ref : ObjectRef) :
    hits ref (w.log e).trace = hits ref w.trace + if e.isHitOn ref then 1 else 0 := by
  rw [World.trace_log, hits_append, hits, hits, List.countP_singleton]

/-! ## The book -/

/-- What has been recorded: nothing about objects to come, and every hit has taken something. -/
structure Booked (w : World) : Prop where
  fresh : ∀ ref, w.idGenerator ≤ ref.id → lost ref w.trace = 0
  paid : ∀ ref, hits ref w.trace ≤ lost ref w.trace

/-- From `w` to `w'` no hit was recorded. -/
def Peaceful (w w' : World) : Prop := ∃ evs, Bloodless evs ∧ w'.trace = w.trace ++ evs

theorem Peaceful.lost (h : Peaceful w w') (ref : ObjectRef) :
    lost ref w'.trace = lost ref w.trace := by
  obtain ⟨evs, hevs, htrace⟩ := h
  rw [htrace, lost_append, hevs.lost, add_zero]

theorem Peaceful.hits (h : Peaceful w w') (ref : ObjectRef) :
    hits ref w'.trace = hits ref w.trace := by
  obtain ⟨evs, hevs, htrace⟩ := h
  rw [htrace, hits_append, hevs.hits, Nat.add_zero]

theorem Peaceful.booked (h : Peaceful w w') (hw : Booked w)
    (hids : w.idGenerator ≤ w'.idGenerator) : Booked w' where
  fresh ref hid := by
    rw [h.lost]
    exact hw.fresh ref (hids.trans hid)
  paid ref := by
    rw [h.lost, h.hits]
    exact hw.paid ref

theorem Peaceful.trans (h : Peaceful w w₁) (h' : Peaceful w₁ w') : Peaceful w w' := by
  obtain ⟨evs, hevs, htrace⟩ := h
  obtain ⟨evs', hevs', htrace'⟩ := h'
  exact ⟨evs ++ evs', hevs.append hevs', by rw [htrace', htrace, List.append_assoc]⟩

theorem Still.peaceful {evs : List Event} (hq : Still w w' evs) (h : Bloodless evs) :
    Peaceful w w' := ⟨evs, h, hq.trace⟩

theorem Quiet.peaceful {r : GameRoom} {msg : ServerPacket} (hq : Quiet w w' (r.announce msg)) :
    Peaceful w w' := hq.toStill.peaceful (bloodless_announce r msg)

theorem World.balance_eq (hroom : w'.room.info? ref = w.room.info? ref)
    (h : Peaceful w w') : w'.balance ref = w.balance ref := by
  rw [balance, balance, hpOf, hpOf, hroom, h.lost]

theorem World.hpOf_of_info? (h : w.room.info? ref = some info) : w.hpOf ref = info.hp.toInt := by
  rw [hpOf, h]
  rfl

theorem World.hpOf_of_none (h : w.room.info? ref = none) : w.hpOf ref = 0 := by
  rw [hpOf, h]
  rfl

theorem World.balance_le (hle : w'.hpOf ref ≤ w.hpOf ref) (h : Peaceful w w') :
    w'.balance ref ≤ w.balance ref := by
  rw [balance, balance, h.lost]
  omega

theorem Sound.hpOf_nonneg (h : Sound w) (ref : ObjectRef) : 0 ≤ w.hpOf ref := by
  cases hi : w.room.info? ref with
  | none => exact (World.hpOf_of_none hi).ge
  | some info =>
    have hpos := toInt_hp_pos (h.fit hi).alive
    rw [World.hpOf_of_info? hi]
    omega

/-! ## Hits -/

theorem loss_hitEvent {attacker victim : ObjectRef} (hv : Fit v) (ref : ObjectRef) :
    (hitEvent attacker victim a v).loss ref =
      if victim = ref then min v.hp.toInt (damageOf a.attack v.defence).toInt else 0 := by
  rw [hitEvent, Event.loss, clampedHp_of_alive hv.alive]

/-- What a hit records, and what it leaves of its victim. -/
theorem Hit.recorded {attacker victim : ObjectRef} (h : Hit attacker victim w w') (hw : Sound w) :
    w' = w ∨ ∃ a v, w.room.info? attacker = some a ∧ w.room.info? victim = some v ∧
      Peaceful (w.log (hitEvent attacker victim a v)) w' ∧
      w'.hpOf victim = max 0 (v.hp.toInt - (damageOf a.attack v.defence).toInt) := by
  cases h with
  | missed => exact .inl rfl
  | @hurt a v _ ha hv _ hq =>
    refine .inr ⟨a, v, ha, hv, hq.peaceful, ?_⟩
    have hget : w'.room.info? victim = some (v.setHp (hpAfter a v)) := by
      rw [hq.room, World.info?_modifyInfo, if_pos rfl, World.room_log, hv]
      rfl
    rw [World.hpOf_of_info? hget]
    exact toInt_hpAfter (hw.fit ha).armed (hw.fit hv)
  | @killed a v _ ha hv hzero hq =>
    refine .inr ⟨a, v, ha, hv, hq.peaceful, ?_⟩
    have hget : w'.room.info? victim = none := by rw [hq.room, World.info?_erase, if_pos rfl]
    have hle : (hpAfter a v).toInt ≤ 0 := Int32.le_iff_toInt_le.1 hzero
    rw [toInt_hpAfter (hw.fit ha).armed (hw.fit hv)] at hle
    rw [World.hpOf_of_none hget]
    omega

/-- **A hit takes from its victim what is recorded**, and from nobody else. -/
theorem Hit.balance {attacker victim : ObjectRef} (h : Hit attacker victim w w') (hw : Sound w)
    (ref : ObjectRef) : w'.balance ref = w.balance ref := by
  rcases h.recorded hw with rfl | ⟨a, v, -, hv, hpeace, hhp⟩
  · rfl
  rw [World.balance, World.balance, hpeace.lost, lost_log, loss_hitEvent (hw.fit hv)]
  split
  · rename_i href
    rw [← href, hhp, World.hpOf_of_info? hv]
    omega
  · rename_i href
    rw [World.hpOf, World.hpOf, h.info?_of_ne (Ne.symm href), add_zero]

theorem Hit.booked {attacker victim : ObjectRef} (h : Hit attacker victim w w') (hr : Registry w)
    (hw : Sound w) (hb : Booked w) : Booked w' := by
  have hids := h.edits.idGenerator
  rcases h.recorded hw with rfl | ⟨a, v, ha, hv, hpeace, -⟩
  · exact hb
  refine hpeace.booked ⟨fun ref hid => ?_, fun ref => ?_⟩ hids.ge
  · have hne : victim ≠ ref := by
      rintro rfl
      exact absurd (hr.lt_idGenerator (GameRoom.registered_of_info? hv)) (Nat.not_lt.2 hid)
    rw [lost_log, loss_hitEvent (hw.fit hv), if_neg hne, add_zero]
    exact hb.fresh ref hid
  · have hpaid := hb.paid ref
    have hhp := toInt_hp_pos (hw.fit hv).alive
    obtain ⟨hd, -, -⟩ := damage_of_armed (hw.fit ha).armed (hw.fit hv).armed
    rw [lost_log, hits_log, loss_hitEvent (hw.fit hv)]
    simp only [hitEvent, Event.isHitOn, decide_eq_true_eq]
    split <;> omega

/-! ## Deeds -/

theorem Deed.sound (hd : Deed w w') (h : Sound w) : Sound w' := by
  cases hd with
  | skill id => exact ((Edit.skill w id).sound h).1
  | hit hhit => exact (hhit.edits.sound h).1
  | leave hreg hq => exact ((Edit.erase hreg hq).sound h).1
  | think hm hsame =>
    refine ⟨fun hi => ?_, h.hits⟩
    rw [World.info?_modifyMonster_of_getElem? hm] at hi
    split at hi
    · obtain rfl := Option.some.inj hi
      exact hsame.sameBody.fit (h.fit (GameRoom.info?_of_monster hm))
    · exact h.fit hi
  | announce hinfo hq => exact ((Edit.announce hinfo hq).sound h).1

theorem Deed.booked (hd : Deed w w') (hr : Registry w) (h : Sound w) (hb : Booked w) :
    Booked w' := by
  have hids := hd.idGenerator.ge
  cases hd with
  | skill id => exact (Still.peaceful (Quiet.log w _).toStill (bloodless_skill id)).booked hb hids
  | hit hhit => exact hhit.booked hr h hb
  | @leave _ id _ hq =>
    have hpeace : Peaceful w w' := hq.peaceful
    exact hpeace.booked hb hids
  | think => exact ⟨hb.fresh, hb.paid⟩
  | announce _ hq => exact hq.peaceful.booked hb hids

/-- A deed keeps the balance of every object, but a player that leaves takes along what it has. -/
theorem Deed.balance (hd : Deed w w') (h : Sound w) (ref : ObjectRef) :
    w'.balance ref = w.balance ref ∨
      w'.balance ref ≤ w.balance ref ∧ w'.room.info? ref = none ∧ ∃ id, ref = .player id := by
  cases hd with
  | skill id =>
    exact .inl (World.balance_eq rfl (Still.peaceful (Quiet.log w _).toStill (bloodless_skill id)))
  | hit hhit => exact .inl (hhit.balance h ref)
  | @leave _ id hreg hq =>
    by_cases href : ref = .player id
    · have hnone : w'.room.info? ref = none := by
        rw [hq.room, World.info?_erase, if_pos href]
      refine .inr ⟨World.balance_le ?_ hq.peaceful, hnone, id, href⟩
      rw [World.hpOf_of_none hnone]
      exact h.hpOf_nonneg ref
    · refine .inl (World.balance_eq ?_ hq.peaceful)
      rw [hq.room, World.info?_erase, if_neg href]
  | @think id m f hm hsame =>
    refine .inl (congrArg (· + lost ref w.trace) ?_)
    rw [World.hpOf, World.hpOf, World.info?_modifyMonster_of_getElem? hm]
    split
    · rename_i href
      rw [href, GameRoom.info?_of_monster hm, Option.map_some, Option.map_some,
        hsame.sameBody.hp]
    · rfl
  | announce _ hq => exact .inl (World.balance_eq (by rw [hq.room]) hq.peaceful)

/-! ## Entries -/

theorem Entered.peaceful (he : Entered s w w') : Peaceful w w' := by
  obtain ⟨hsends, hadd⟩ := he
  have hsend := (bloodless_send s (.sMyPlayer (enteringPlayer w.idGenerator s).info)).append
    (bloodless_send s (.sAddObject w.room.infos))
  have hbefore : Peaceful w _ := hsends.toStill.peaceful hsend
  exact hbefore.trans hadd.peaceful

theorem Entered.balance (he : Entered s w w') (hb : Booked w) (ref : ObjectRef) :
    w'.balance ref = if ref = .player w.idGenerator then ref.startHp else w.balance ref := by
  split
  · rename_i href
    have hget : w'.room.info? ref = some (enteringPlayer w.idGenerator s).info := by
      rw [he.info?, if_pos href]
    rw [World.balance, World.hpOf_of_info? hget, he.peaceful.lost,
      hb.fresh ref (by rw [href]; exact le_rfl), href]
    rfl
  · rename_i href
    exact World.balance_eq (by rw [he.info?, if_neg href]) he.peaceful

/-! ## Packets -/

theorem Sound.hpOf_moveInfo_le (h : Sound w) (ref : ObjectRef) (pkt : CMove) (ref' : ObjectRef) :
    (w.modifyInfo ref (moveInfo pkt)).hpOf ref' ≤ w.hpOf ref' := by
  have hget : (w.modifyInfo ref (moveInfo pkt)).room.info? ref' =
      if ref' = ref then (w.room.info? ref).map (moveInfo pkt) else w.room.info? ref' :=
    World.info?_modifyInfo
  split at hget
  · rename_i href
    cases hi : w.room.info? ref with
    | none =>
      rw [hi] at hget
      rw [World.hpOf_of_none hget, href, World.hpOf_of_none hi]
    | some info =>
      rw [hi] at hget
      rw [World.hpOf_of_info? hget, href, World.hpOf_of_info? hi]
      exact Int32.le_iff_toInt_le.1 (fit_moveInfo pkt (h.fit hi)).2
  · rw [World.hpOf, hget, World.hpOf]

theorem Sound.balance_moveInfo_le (h : Sound w) (ref : ObjectRef) (pkt : CMove)
    (ref' : ObjectRef) : (w.modifyInfo ref (moveInfo pkt)).balance ref' ≤ w.balance ref' :=
  World.balance_le (h.hpOf_moveInfo_le ref pkt ref') ⟨[], bloodless_nil, (List.append_nil _).symm⟩

/-! ## Every run -/

/-- Nobody has more than what is left of what it started with. -/
structure Bounded (w : World) : Prop extends Booked w where
  sound : Sound w
  le : ∀ ref, w.balance ref ≤ ref.startHp

theorem upheld_bounded : Upheld (fun _ => True) (fun _ => True) Bounded where
  still {w w' s evs} hevs hq h := by
    have hpeace := hq.peaceful fun e he => bloodless_send s _ e (hevs he)
    refine ⟨hpeace.booked h.toBooked hq.idGenerator.ge, h.sound.of_still hq fun e he => ?_,
      fun ref => ?_⟩
    · exact .inl ⟨s, _, List.mem_singleton.1 (hevs he)⟩
    · rw [World.balance_eq (by rw [hq.room]) hpeace]
      exact h.le ref
  deed hr h hd := by
    refine ⟨hd.booked hr h.sound h.toBooked, hd.sound h.sound, fun ref => ?_⟩
    rcases hd.balance h.sound ref with heq | ⟨hle, -⟩
    · exact heq.le.trans (h.le ref)
    · exact hle.trans (h.le ref)
  move {w pkt} ref _ _ h := by
    refine ⟨⟨h.fresh, h.paid⟩, (h.sound.moveInfo_weakens ref pkt).1, fun ref' => ?_⟩
    exact (h.sound.balance_moveInfo_le ref pkt ref').trans (h.le ref')
  enter {w w' s} _ hr hs h he := by
    obtain ⟨hsound, hweak⟩ := he.sound h.sound
    refine ⟨he.peaceful.booked h.toBooked hweak.idGenerator, hsound, fun ref => ?_⟩
    rw [he.balance h.toBooked]
    split
    · exact le_rfl
    · exact h.le ref

theorem bounded_init (tilemap : Tilemap) : Bounded (World.init tilemap) where
  fresh _ _ := rfl
  paid _ := le_rfl
  sound := sound_init tilemap
  le ref := by
    have hlost : lost ref (World.init tilemap).trace = 0 := rfl
    rw [World.balance, hlost, add_zero]
    cases hi : (World.init tilemap).room.info? ref with
    | none =>
      rw [World.hpOf_of_none hi]
      cases ref with
      | player => exact (by decide : (0 : ℤ) ≤ 100)
      | monster => exact (by decide : (0 : ℤ) ≤ 50)
    | some info =>
      obtain ⟨rfl, rfl⟩ := info?_init hi
      rw [World.hpOf_of_info? hi]
      decide

theorem bounded_of_serverRun (h : ServerReachable P tilemap w) : Bounded w :=
  upheld_bounded.serverRun (fun _ _ _ => trivial) (fun _ _ _ _ => trivial) h (registry_init tilemap)
    (bounded_init tilemap)

/-- **Nobody loses more than it started with.** What an object has and what all hits have taken from
it is never more than it started with, whatever the packets say, so it is hit at most that often. -/
theorem wounds_of_run (h : ServerReachable P tilemap w) (ref : ObjectRef) :
    w.hpOf ref + lost ref w.trace ≤ ref.startHp ∧ hits ref w.trace ≤ ref.startHp := by
  have hb := bounded_of_serverRun h
  have hpaid := hb.paid ref
  have hle := hb.le ref
  have hnonneg := hb.sound.hpOf_nonneg ref
  rw [World.balance] at hle
  exact ⟨hle, by omega⟩

/-- The first player, beside the monster and striking it. -/
def stab : CMove :=
  ⟨(((enteringPlayer 2 0).info.setCellPos ⟨8, 7⟩).setDir dirDown).setState skill⟩

theorem serverStep_stab : ServerStep (.always .accepted) (afterConnect .accepted)
    (.receiveCMove 0 stab) (afterPacket stab) := .receiveCMove rfl

theorem wounds_of_run_stab : (afterPacket stab).hpOf (.monster 1) = 35 ∧
    35 + lost (.monster 1) (afterPacket stab).trace ≤ 50 := by
  have hhp : (afterPacket stab).hpOf (.monster 1) = 35 := by decide
  have hrun := serverReachable_afterConnect.tail trivial serverStep_stab
  exact ⟨hhp, hhp ▸ (wounds_of_run hrun (.monster 1)).1⟩

/-! ## Runs without low maxima -/

/-- The packet does not ask for a maximum below what a player starts with. -/
def Generous (pkt : CMove) : Prop := pkt.info.maxhp ≤ 0 ∨ 100 ≤ pkt.info.maxhp

/-- The event is no packet, or a generous one. -/
def ServerEvent.Generous : ServerEvent → Prop
  | .receiveCMove _ pkt => Server.Generous pkt
  | _ => True

theorem clampHp_maxhp (stat : WeaponStatData) (info : ObjectInfo) :
    (clampHp stat info).maxhp = info.maxhp := by
  simp only [clampHp]
  split_ifs <;> rfl

/-- A generous packet leaves the hp as it is, and a maximum that is high enough. -/
theorem moveInfo_of_generous {start : ℤ} (hok : Generous pkt) (h : Fit info)
    (hhp : info.hp.toInt ≤ start) (hmax : start ≤ info.maxhp.toInt) (hstart : start ≤ 100) :
    (moveInfo pkt info).hp = info.hp ∧ start ≤ (moveInfo pkt info).maxhp.toInt := by
  have hnew : start ≤ (moveInfo pkt info).maxhp.toInt := by
    rw [moveInfo_maxhp pkt h.maxhp]
    split
    · rename_i hpkt
      rcases hok with hle | hge
      · exact absurd hpkt.1 (Int32.not_lt.2 hle)
      · exact hstart.trans (Int32.le_iff_toInt_le.1 hge)
    · exact hmax
  refine ⟨?_, hnew⟩
  rw [moveInfo, clampHp_maxhp] at hnew
  have halive : Alive (overwriteInfo pkt info) := by
    rw [Alive, overwriteInfo_hp]
    exact ⟨h.alive.1, Int32.le_iff_toInt_le.2 (hhp.trans hnew)⟩
  rw [moveInfo, clampHp_of_alive _ halive, overwriteInfo_hp]

/-- Everybody who is there has what is left of what it started with. -/
structure Exact (w : World) : Prop extends Bounded w where
  eq : ∀ {ref info}, w.room.info? ref = some info → w.balance ref = ref.startHp
  roomy : ∀ {ref info}, w.room.info? ref = some info → ref.startHp ≤ info.maxhp.toInt
  monster : w.balance (.monster 1) = 50

theorem ObjectRef.startHp_le (ref : ObjectRef) : ref.startHp ≤ 100 := by
  cases ref with
  | player => exact le_rfl
  | monster => exact (by decide : (50 : ℤ) ≤ 100)

theorem Bounded.hp_le (h : Bounded w) (hi : w.room.info? ref = some info) :
    info.hp.toInt ≤ ref.startHp := by
  have hle := h.le ref
  have hpaid := h.paid ref
  rw [World.balance, World.hpOf_of_info? hi] at hle
  omega

theorem Change.maxhp {info' : ObjectInfo} (h : Change w info info') : info'.maxhp = info.maxhp := by
  cases h with
  | same | hurt => rfl
  | act hbody => exact hbody.maxhp

theorem Edits.maxhp (he : Edits w w') {info' : ObjectInfo} (hi : w'.room.info? ref = some info') :
    ∃ info, w.room.info? ref = some info ∧ info'.maxhp = info.maxhp := by
  induction he generalizing info' with
  | refl => exact ⟨info', hi, rfl⟩
  | tail _ he ih =>
    obtain ⟨info₁, hi₁, hchange⟩ := he.change hi
    obtain ⟨info, hold, hmax⟩ := ih hi₁
    exact ⟨info, hold, hchange.maxhp.trans hmax⟩

/-- A deed changes no maximum, and brings nobody into the room. -/
theorem Deed.maxhp (hd : Deed w w') {info' : ObjectInfo} (hi : w'.room.info? ref = some info') :
    ∃ info, w.room.info? ref = some info ∧ info'.maxhp = info.maxhp := by
  cases hd with
  | skill id => exact ⟨info', hi, rfl⟩
  | hit hhit => exact hhit.edits.maxhp hi
  | leave hreg hq => exact Edits.maxhp (.single (.erase hreg hq)) hi
  | @think id m f hm hsame =>
    rw [World.info?_modifyMonster_of_getElem? hm] at hi
    split at hi
    · rename_i href
      obtain rfl := Option.some.inj hi
      exact ⟨m.info, href ▸ GameRoom.info?_of_monster hm, hsame.sameBody.maxhp⟩
    · exact ⟨info', hi, rfl⟩
  | announce hinfo hq => exact Edits.maxhp (.single (.announce hinfo hq)) hi

theorem upheld_exact : Upheld (fun _ => True) Generous Exact where
  still {w w' s evs} hevs hq h := by
    have hb := upheld_bounded.still hevs hq h.toBounded
    have hbalance : ∀ ref, w'.balance ref = w.balance ref := fun ref =>
      World.balance_eq (by rw [hq.room])
        (hq.peaceful fun e he => bloodless_send s _ e (hevs he))
    refine ⟨hb, fun hi => ?_, fun hi => h.roomy (hq.room ▸ hi), (hbalance _).trans h.monster⟩
    rw [hbalance]
    exact h.eq (hq.room ▸ hi)
  deed {w w'} hr h hd := by
    refine ⟨upheld_bounded.deed hr h.toBounded hd, fun {ref info} hi => ?_,
      fun {ref info} hi => ?_, ?_⟩
    · obtain ⟨info₀, hold, -⟩ := hd.maxhp hi
      rcases hd.balance h.sound ref with heq | ⟨-, hnone, -⟩
      · exact heq.trans (h.eq hold)
      · cases hnone.symm.trans hi
    · obtain ⟨info₀, hold, hmax⟩ := hd.maxhp hi
      rw [hmax]
      exact h.roomy hold
    · rcases hd.balance h.sound (.monster 1) with heq | ⟨-, -, id, hplayer⟩
      · exact heq.trans h.monster
      · cases hplayer
  move {w pkt} ref hok hr h := by
    have hmove := fun {info} (hi : w.room.info? ref = some info) =>
      moveInfo_of_generous hok (h.sound.fit hi) (h.hp_le hi) (h.roomy hi) ref.startHp_le
    -- nobody's hp changes
    have hbalance : ∀ ref', (w.modifyInfo ref (moveInfo pkt)).balance ref' = w.balance ref' := by
      intro ref'
      refine congrArg (· + lost ref' w.trace) ?_
      rw [World.hpOf, World.hpOf, World.info?_modifyInfo]
      split
      · rename_i href
        cases hi : w.room.info? ref with
        | none => rw [href, hi, Option.map_none, Option.map_none]
        | some info =>
          rw [href, hi, Option.map_some, Option.map_some, (hmove hi).1, Option.map_some]
      · rfl
    have hreg : ∀ {ref' info'}, (w.modifyInfo ref (moveInfo pkt)).room.info? ref' = some info' →
        ∃ info, w.room.info? ref' = some info ∧ ref'.startHp ≤ info'.maxhp.toInt := by
      intro ref' info' hi
      rw [World.info?_modifyInfo] at hi
      split at hi
      · rename_i href
        obtain ⟨info, hold, rfl⟩ := Option.map_eq_some_iff.1 hi
        exact ⟨info, href ▸ hold, href ▸ (hmove hold).2⟩
      · exact ⟨info', hi, h.roomy hi⟩
    refine ⟨upheld_bounded.move ref trivial hr h.toBounded, fun hi => ?_, fun hi => ?_,
      (hbalance _).trans h.monster⟩
    · obtain ⟨info, hold, -⟩ := hreg hi
      rw [hbalance, h.eq hold]
    · obtain ⟨-, -, hroomy⟩ := hreg hi
      exact hroomy
  enter {w w' s} hfit hr hs h he := by
    refine ⟨upheld_bounded.enter hfit hr hs h.toBounded he, fun {ref info} hi => ?_,
      fun {ref info} hi => ?_, ?_⟩
    · rw [he.balance h.toBooked]
      rw [he.info?] at hi
      split
      · rfl
      · rename_i href
        rw [if_neg href] at hi
        exact h.eq hi
    · rw [he.info?] at hi
      split at hi
      · rename_i href
        obtain rfl := Option.some.inj hi
        rw [href]
        exact (by decide : (100 : ℤ) ≤ 100)
      · exact h.roomy hi
    · rw [he.balance h.toBooked, if_neg ObjectRef.noConfusion]
      exact h.monster

theorem exact_init (tilemap : Tilemap) : Exact (World.init tilemap) := by
  have hget : ∀ {ref info}, (World.init tilemap).room.info? ref = some info →
      ref = .monster 1 ∧ info = firstMonster.info := info?_init
  refine ⟨bounded_init tilemap, fun hi => ?_, fun hi => ?_, rfl⟩
  · obtain ⟨rfl, rfl⟩ := hget hi
    rfl
  · obtain ⟨rfl, rfl⟩ := hget hi
    exact (by decide : (50 : ℤ) ≤ 50)

/-- **Hp goes where the hits say.** As long as no packet asks for a low maximum, everybody has what
it started with less what the hits have taken, and the monster is gone exactly when they have taken
all. -/
theorem balance_of_run
    (h : Reaches (ServerStep P) (fun _ ev => ev.Generous) (World.init tilemap) w) :
    (∀ ref info, w.room.info? ref = some info →
      info.hp.toInt + lost ref w.trace = ref.startHp) ∧
    (1 ∉ w.room.monsters ↔ lost (.monster 1) w.trace = 50) := by
  have he : Exact w := upheld_exact.serverRun (fun _ _ _ => trivial) (fun _ _ _ hok => hok) h
    (registry_init tilemap) (exact_init tilemap)
  have hmonster := he.monster
  rw [World.balance] at hmonster
  refine ⟨fun ref info hi => ?_, fun hgone => ?_, fun hlost hmem => ?_⟩
  · rw [← World.hpOf_of_info? hi]
    exact he.eq hi
  · have hnone : w.room.info? (.monster 1) = none := by
      rw [← Option.not_isSome_iff_eq_none]
      exact fun hreg => hgone (GameRoom.registered_monster.1 hreg)
    rw [World.hpOf_of_none hnone] at hmonster
    omega
  · obtain ⟨info, hi⟩ := Option.isSome_iff_exists.1 (GameRoom.registered_monster.2 hmem)
    have hpos := toInt_hp_pos (he.sound.fit hi).alive
    rw [World.hpOf_of_info? hi] at hmonster
    omega

theorem balance_of_run_stab : lost (.monster 1) (afterPacket stab).trace = 15 := by
  have hconnect : ServerStep (.always .accepted) (World.init {}) (.processConnect 0)
      (afterConnect .accepted) := .processConnect rfl rfl
  have hrun : Reaches (ServerStep (.always .accepted)) (fun _ ev => ev.Generous) (World.init {})
      (afterPacket stab) := by
    have hgenerous : Generous stab := .inr (by decide)
    exact .tail (e := .receiveCMove 0 stab) (.single (e := .processConnect 0) trivial hconnect)
      hgenerous serverStep_stab
  have hmonster : (afterPacket stab).room.info? (.monster 1) =
      some (firstMonster.info.setHp 35) := by decide
  have hbalance : 35 + lost (.monster 1) (afterPacket stab).trace = 50 :=
    (balance_of_run hrun).1 _ _ hmonster
  omega

end Zelda.Server
