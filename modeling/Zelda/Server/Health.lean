import Zelda.Server.Runs

/-!
# Authority over health

Packets carry hp, maximum hp, attack and defence, but the room does not believe them: the hp of an
object is only cut down, to its maximum or by a hit, and its attack and defence always come from one
of four templates (`Armed`). So the hp of every object is between 1 and its maximum, it never rises
while the object lives, and the subtractions of `ApplyDamage` do not overflow
(`health_of_run`).
-/

namespace Zelda.Server

open Protocol Std

variable {P : Platform} {w w' w'' : World} {s : SessionId} {ref : ObjectRef}
  {info info' a v : ObjectInfo} {pkt : CMove} {tilemap : Tilemap}

/-! ## The invariant of one object -/

/-- The hp is between 1 and the maximum. -/
def Alive (info : ObjectInfo) : Prop := 1 ≤ info.hp ∧ info.hp ≤ info.maxhp

/-- Attack and defence are those of a weapon or of a monster. -/
def Armed (info : ObjectInfo) : Prop :=
  (info.attack, info.defence) ∈ [((15 : Int32), (5 : Int32)), (12, 3), (18, 2), (5, 0)]

/-- What holds of every object of the room. -/
structure Fit (info : ObjectInfo) : Prop where
  alive : Alive info
  armed : Armed info

theorem SameBody.fit (hb : SameBody info info') (h : Fit info) : Fit info' where
  alive := by rw [Alive, hb.hp, hb.maxhp]; exact h.alive
  armed := by rw [Armed, hb.attack, hb.defence]; exact h.armed

theorem fit_sword (info : ObjectInfo) : Fit (info.applyWeaponStat swordStat) :=
  ⟨⟨(by decide : (1 : Int32) ≤ 100), (by decide : (100 : Int32) ≤ 100)⟩, List.mem_cons_self⟩

/-! ## Arithmetic of a hit -/

theorem Int32.toInt_sub_of_bounds {x y : Int32} (h₁ : -2 ^ 31 ≤ x.toInt - y.toInt)
    (h₂ : x.toInt - y.toInt < 2 ^ 31) : (x - y).toInt = x.toInt - y.toInt := by
  rw [Int32.toInt_sub, Int.bmod_eq_of_le (by omega) (by omega)]

/-- A hit between two armed objects does damage between 1 and 18, and the subtraction that gives it
does not overflow. -/
theorem damage_of_armed (ha : Armed a) (hv : Armed v) :
    1 ≤ (damageOf a.attack v.defence).toInt ∧ (damageOf a.attack v.defence).toInt ≤ 18 ∧
      (a.attack - v.defence).toInt = a.attack.toInt - v.defence.toInt := by
  simp only [Armed, List.mem_cons, List.not_mem_nil, or_false, Prod.mk.injEq] at ha hv
  rcases ha with ⟨h₁, -⟩ | ⟨h₁, -⟩ | ⟨h₁, -⟩ | ⟨h₁, -⟩ <;>
  rcases hv with ⟨-, h₂⟩ | ⟨-, h₂⟩ | ⟨-, h₂⟩ | ⟨-, h₂⟩ <;>
  · rw [h₁, h₂]
    decide

theorem clampedHp_of_alive (h : Alive v) : clampedHp v = v.hp :=
  if_neg fun hlt => absurd h.2 (Int32.not_le.2 hlt.2)

theorem toInt_hp_pos (h : Alive v) : 1 ≤ v.hp.toInt := Int32.le_iff_toInt_le.1 h.1

/-- A hit takes the damage from the hp, down to 0. -/
theorem toInt_hpAfter (ha : Armed a) (hv : Fit v) : (hpAfter a v).toInt =
    max 0 (v.hp.toInt - (damageOf a.attack v.defence).toInt) := by
  obtain ⟨hd₁, hd₂, -⟩ := damage_of_armed ha hv.armed
  have hhp := toInt_hp_pos hv.alive
  have hmax := v.hp.toInt_lt
  have hsub : (v.hp - damageOf a.attack v.defence).toInt =
      v.hp.toInt - (damageOf a.attack v.defence).toInt :=
    Int32.toInt_sub_of_bounds (by omega) (by omega)
  have hzero : (0 : Int32).toInt = 0 := rfl
  rw [hpAfter, clampedHp_of_alive hv.alive]
  simp only [Int32.lt_iff_toInt_lt, hzero, hsub]
  split
  · omega
  · rw [hsub]
    omega

/-- The hp that a hit leaves is lower than before, unless the hit is deadly. -/
theorem hpAfter_lt (ha : Armed a) (hv : Fit v) (hpos : 0 < hpAfter a v) :
    1 ≤ hpAfter a v ∧ hpAfter a v < v.hp := by
  obtain ⟨hd₁, hd₂, -⟩ := damage_of_armed ha hv.armed
  have hhp := toInt_hp_pos hv.alive
  have hmax := v.hp.toInt_lt
  have hsub : (v.hp - damageOf a.attack v.defence).toInt =
      v.hp.toInt - (damageOf a.attack v.defence).toInt :=
    Int32.toInt_sub_of_bounds (by omega) (by omega)
  simp only [hpAfter, clampedHp_of_alive hv.alive] at hpos ⊢
  split
  · rename_i hneg
    rw [if_pos hneg] at hpos
    exact absurd hpos (by decide)
  · rename_i hneg
    rw [if_neg hneg] at hpos
    rw [Int32.le_iff_toInt_le, Int32.lt_iff_toInt_lt]
    rw [Int32.lt_iff_toInt_lt] at hpos
    have h0 : (0 : Int32).toInt = 0 := rfl
    have h1 : (1 : Int32).toInt = 1 := rfl
    omega

theorem fit_hurt (ha : Armed a) (hv : Fit v) (hpos : 0 < hpAfter a v) :
    Fit (v.setHp (hpAfter a v)) := by
  obtain ⟨h₁, h₂⟩ := hpAfter_lt ha hv hpos
  exact ⟨⟨h₁, Int32.le_trans (Int32.le_of_lt h₂) hv.alive.2⟩, hv.armed⟩

/-! ## Moves -/

theorem Int32.not_le_zero {x : Int32} (h : 1 ≤ x) : ¬ x ≤ 0 :=
  fun h0 => absurd (Int32.le_trans h h0) (by decide)

theorem Int32.pos_of_one_le {x : Int32} (h : 1 ≤ x) : 0 < x :=
  Int32.not_le.1 (Int32.not_le_zero h)

theorem Int32.not_neg_of_one_le {x : Int32} (h : 1 ≤ x) : ¬ x < 0 :=
  fun h0 => Int32.not_le_zero h (Int32.le_of_lt h0)

/-- Cutting the hp to a positive maximum. -/
theorem alive_clampHp (weaponStat : WeaponStatData) (hhp : 1 ≤ info.hp) (hmax : 1 ≤ info.maxhp) :
    Alive (clampHp weaponStat info) ∧ (clampHp weaponStat info).hp ≤ info.hp := by
  simp only [clampHp, if_neg (Int32.not_le_zero hmax), Int32.pos_of_one_le hmax, true_and]
  by_cases hlt : info.maxhp < info.hp
  · have hset : (info.setHp info.maxhp).hp = info.maxhp := rfl
    rw [if_pos hlt, hset, if_neg (Int32.not_neg_of_one_le hmax)]
    exact ⟨⟨hmax, Int32.le_refl _⟩, Int32.le_of_lt hlt⟩
  · rw [if_neg hlt, if_neg (Int32.not_neg_of_one_le hhp)]
    exact ⟨⟨hhp, Int32.not_lt.1 hlt⟩, Int32.le_refl _⟩

theorem overwriteInfo_hp (pkt : CMove) (info : ObjectInfo) :
    (overwriteInfo pkt info).hp = info.hp := by
  simp only [overwriteInfo]
  split <;> rfl

theorem one_le_overwriteInfo_maxhp (pkt : CMove) (h : 1 ≤ info.maxhp) :
    1 ≤ (overwriteInfo pkt info).maxhp := by
  simp only [overwriteInfo]
  split
  · rename_i hpkt
    exact Int32.le_iff_toInt_le.2 (Int32.lt_iff_toInt_lt.1 hpkt.1)
  · exact le_of_le_of_eq h (if_neg (Int32.not_le_zero h)).symm

theorem armed_moveInfo (pkt : CMove) (info : ObjectInfo) : Armed (moveInfo pkt info) := by
  rw [Armed, moveInfo_attack, moveInfo_defence]
  rcases resolveWeaponStat_cases pkt.info.attack with hr | hr | hr <;>
  · rw [hr]
    decide

/-- Whatever the packet says, a move leaves the object fit and does not raise its hp. -/
theorem fit_moveInfo (pkt : CMove) (h : Fit info) :
    Fit (moveInfo pkt info) ∧ (moveInfo pkt info).hp ≤ info.hp := by
  obtain ⟨h₁, h₂⟩ := h.alive
  have hhp : 1 ≤ (overwriteInfo pkt info).hp := by rw [overwriteInfo_hp]; exact h₁
  obtain ⟨halive, hle⟩ := alive_clampHp (resolveWeaponStat pkt.info.attack) hhp
    (one_le_overwriteInfo_maxhp pkt (Int32.le_trans h₁ h₂))
  rw [overwriteInfo_hp] at hle
  exact ⟨⟨halive, armed_moveInfo pkt info⟩, hle⟩

/-! ## The invariant of the room -/

/-- Every object of the room is fit, and no hit so far overflowed. -/
structure Sound (w : World) : Prop where
  fit : ∀ {ref info}, w.room.info? ref = some info → Fit info
  hits : ∀ {attacker victim attack defence hp damage},
    .applyDamage attacker victim attack defence hp damage ∈ w.trace →
    (attack - defence).toInt = attack.toInt - defence.toInt ∧
      (hp - damage).toInt = hp.toInt - damage.toInt

/-- `w'` comes after `w`: objects that are in both have not gained hp. -/
structure Weakens (w w' : World) : Prop where
  idGenerator : w.idGenerator ≤ w'.idGenerator
  hp_le : ∀ {ref info'}, w'.room.info? ref = some info' → ref.id < w.idGenerator →
    ∃ info, w.room.info? ref = some info ∧ info'.hp ≤ info.hp

theorem Weakens.refl (w : World) : Weakens w w :=
  ⟨Nat.le_refl _, fun hi _ => ⟨_, hi, Int32.le_refl _⟩⟩

theorem Weakens.trans (h : Weakens w w') (h' : Weakens w' w'') : Weakens w w'' where
  idGenerator := h.idGenerator.trans h'.idGenerator
  hp_le hi hlt := by
    obtain ⟨info', hi', hle'⟩ := h'.hp_le hi (Nat.lt_of_lt_of_le hlt h.idGenerator)
    obtain ⟨info, hi, hle⟩ := h.hp_le hi' hlt
    exact ⟨info, hi, Int32.le_trans hle' hle⟩

/-- The subtractions of a hit between fit objects do not overflow. -/
theorem Sound.of_fair (h : Sound w) (hfit : ∀ {ref info}, w'.room.info? ref = some info → Fit info)
    (htrace : ∀ e ∈ w'.trace, e ∈ w.trace ∨ e.Fair w) : Sound w' where
  fit := hfit
  hits {attacker victim attack defence hp damage} hmem := by
    rcases htrace _ hmem with hold | hsend | hskill | ⟨attacker', victim', a, v, ha, hv, heq⟩
    · exact h.hits hold
    · obtain ⟨s, pkt, heq⟩ := hsend
      cases heq
    · obtain ⟨id, heq⟩ := hskill
      cases heq
    · cases heq
      obtain ⟨hd₁, hd₂, hsub⟩ := damage_of_armed (h.fit ha).armed (h.fit hv).armed
      have hhp := toInt_hp_pos (h.fit hv).alive
      have hmax := v.hp.toInt_lt
      rw [clampedHp_of_alive (h.fit hv).alive]
      exact ⟨hsub, Int32.toInt_sub_of_bounds (by omega) (by omega)⟩

theorem Sound.of_still {evs : List Event} (h : Sound w) (hq : Still w w' evs)
    (hevs : ∀ e ∈ evs, e.Fair w) : Sound w' := by
  refine h.of_fair (fun hi => h.fit (hq.room ▸ hi)) fun e he => ?_
  rw [hq.trace, List.mem_append] at he
  exact he.imp_right (hevs e)

theorem Change.fit (hc : Change w info info') (h : Sound w) (hi : w.room.info? ref = some info) :
    Fit info' ∧ info'.hp ≤ info.hp := by
  cases hc with
  | same => exact ⟨h.fit hi, Int32.le_refl _⟩
  | hurt ha hpos =>
    have hlt := (hpAfter_lt (h.fit ha).armed (h.fit hi) hpos).2
    exact ⟨fit_hurt (h.fit ha).armed (h.fit hi) hpos, Int32.le_of_lt hlt⟩
  | act hbody => exact ⟨hbody.fit (h.fit hi), by rw [hbody.hp]; exact Int32.le_refl _⟩

theorem Edit.sound (he : Edit w w') (h : Sound w) : Sound w' ∧ Weakens w w' := by
  refine ⟨h.of_fair (fun hi => ?_) fun e hmem => he.fair hmem, he.idGenerator.ge, fun hi _ => ?_⟩
  · obtain ⟨info, hold, hc⟩ := he.change hi
    exact (hc.fit h hold).1
  · obtain ⟨info, hold, hc⟩ := he.change hi
    exact ⟨info, hold, (hc.fit h hold).2⟩

theorem Edits.sound (he : Edits w w') (h : Sound w) : Sound w' ∧ Weakens w w' := by
  induction he with
  | refl => exact ⟨h, .refl w⟩
  | tail _ he ih =>
    obtain ⟨h₁, hw₁⟩ := ih
    obtain ⟨h₂, hw₂⟩ := he.sound h₁
    exact ⟨h₂, hw₁.trans hw₂⟩

theorem Sound.moveInfo_weakens (h : Sound w) (ref : ObjectRef) (pkt : CMove) :
    Sound (w.modifyInfo ref (moveInfo pkt)) ∧ Weakens w (w.modifyInfo ref (moveInfo pkt)) := by
  have hinfo : ∀ {ref' info'}, (w.modifyInfo ref (moveInfo pkt)).room.info? ref' = some info' →
      ∃ info, w.room.info? ref' = some info ∧ Fit info' ∧ info'.hp ≤ info.hp := by
    intro ref' info' hi
    rw [World.info?_modifyInfo] at hi
    split at hi
    · rename_i href
      obtain ⟨info, hinfo, rfl⟩ := Option.map_eq_some_iff.1 hi
      exact ⟨info, href ▸ hinfo, fit_moveInfo pkt (h.fit hinfo)⟩
    · exact ⟨info', hi, h.fit hi, Int32.le_refl _⟩
  refine ⟨⟨fun hi => ?_, h.hits⟩, Nat.le_refl _, fun hi _ => ?_⟩
  · obtain ⟨-, -, hfit, -⟩ := hinfo hi
    exact hfit
  · obtain ⟨info, hold, -, hle⟩ := hinfo hi
    exact ⟨info, hold, hle⟩

theorem Moved.sound (hm : Moved pkt w w') (h : Sound w) : Sound w' ∧ Weakens w w' := by
  cases hm with
  | absent => exact ⟨h, .refl w⟩
  | @moved ref _ _ _ _ _ hattack _ hq =>
    obtain ⟨h₀, hw₀⟩ := h.moveInfo_weakens ref pkt
    obtain ⟨h₁, hw₁⟩ := hattack.edits.sound h₀
    refine ⟨h₁.of_still hq.toStill fun e he => Event.fair_of_mem_announce he, ?_⟩
    refine (hw₀.trans hw₁).trans ⟨hq.idGenerator.ge, fun hi _ => ⟨_, hq.room ▸ hi, ?_⟩⟩
    exact Int32.le_refl _

theorem Entered.sound (he : Entered s w w') (h : Sound w) : Sound w' ∧ Weakens w w' := by
  refine ⟨h.of_fair (fun hi => ?_) fun e hmem => he.fair hmem, ?_, fun hi hlt => ?_⟩
  · rw [he.info?] at hi
    split at hi
    · obtain rfl := Option.some.inj hi
      exact fit_sword _
    · exact h.fit hi
  · rw [he.idGenerator]
    exact Nat.le_succ _
  · rw [he.info?] at hi
    split at hi
    · rename_i href
      rw [href] at hlt
      exact absurd hlt (lt_irrefl _)
    · exact ⟨_, hi, Int32.le_refl _⟩

/-! ## Every run -/

theorem RoomStep.sound {ev : RoomEvent} (hs : RoomStep P w ev w') (hr : Registry w) (h : Sound w) :
    Sound w' ∧ Weakens w w' := by
  rcases hs.change hr with he | ⟨_, hm⟩ | ⟨_, -, he⟩
  · exact he.sound h
  · exact hm.sound h
  · exact he.sound h

theorem Sound.setSession (h : Sound w) (s : SessionId) (g : GameSession) :
    Sound (w.setSession s g) := ⟨h.fit, h.hits⟩

theorem Ran.sound (hran : Ran w w') (h : Sound w) : Sound w' := by
  obtain ⟨w₁, w₂, hbefore, hedits, hafter⟩ := hran
  have hnil : ∀ {w : World}, ∀ e ∈ ([] : List Event), e.Fair w := fun _ he => by cases he
  exact (hedits.sound (h.of_still hbefore hnil)).1.of_still hafter hnil

theorem Connected.sound (hc : Connected s w w') (h : Sound w) : Sound w' := by
  obtain ⟨hsend, henter⟩ := hc
  refine (henter.sound ((h.setSession s _).of_still hsend.toStill fun e he => ?_)).1
  obtain rfl := List.mem_singleton.1 he
  exact .inl ⟨s, _, rfl⟩

theorem ServerStep.sound {ev : ServerEvent} (hs : ServerStep P w ev w') (hr : Registry w)
    (h : Sound w) : Sound w' := by
  rcases hs.change hr with hran | ⟨s, -, -, hc⟩ | ⟨s, pkt, -, rfl | hm⟩
  · exact hran.sound h
  · exact hc.sound h
  · exact h
  · exact (hm.sound h).1

theorem sound_init (tilemap : Tilemap) : Sound (World.init tilemap) where
  fit hi := by
    obtain ⟨-, rfl⟩ := info?_init hi
    exact ⟨⟨by decide, by decide⟩, List.mem_of_elem_eq_true rfl⟩
  hits hmem := absurd hmem List.not_mem_nil

theorem sound_of_run {C : World → RoomEvent → Prop} (h : Reaches (RoomStep P) C w w')
    (hr : Registry w) (hs : Sound w) : Sound w' ∧ Weakens w w' := by
  have hall : Registry w' ∧ Sound w' ∧ Weakens w w' := by
    refine h.invariant (I := fun w₁ => Registry w₁ ∧ Sound w₁ ∧ Weakens w w₁) ?_ ⟨hr, hs, .refl w⟩
    rintro w₁ ev w₂ ⟨hr₁, hs₁, hw₁⟩ - hstep
    obtain ⟨hs₂, hw₂⟩ := hstep.sound hr₁ hs₁
    exact ⟨hstep.registry hr₁, hs₂, hw₁.trans hw₂⟩
  exact hall.2

theorem sound_of_serverRun (h : ServerReachable P tilemap w) : Registry w ∧ Sound w :=
  h.invariant (I := fun w => Registry w ∧ Sound w)
    (fun _ _ _ hI _ hs => ⟨hs.registry hI.1, hs.sound hI.1 hI.2⟩)
    ⟨registry_init tilemap, sound_init tilemap⟩

/-- **The room has authority over health.** In every run of the room, every object has an hp between
1 and its maximum, an object that is there before and after some steps has not gained hp in them,
and the subtractions of all hits were exact. -/
theorem health_of_run (h : RoomReachable P tilemap w)
    (h' : Reaches (RoomStep P) (fun _ _ => True) w w') :
    (∀ ref info, w.room.info? ref = some info → 1 ≤ info.hp ∧ info.hp ≤ info.maxhp) ∧
    (∀ ref info info', w.room.info? ref = some info → w'.room.info? ref = some info' →
      info'.hp ≤ info.hp) ∧
    (∀ attacker victim attack defence hp damage,
      .applyDamage attacker victim attack defence hp damage ∈ w.trace →
      (attack - defence).toInt = attack.toInt - defence.toInt ∧
        (hp - damage).toInt = hp.toInt - damage.toInt) := by
  have hr := registry_of_roomRun h (registry_init tilemap)
  have hs := (sound_of_run h (registry_init tilemap) (sound_init tilemap)).1
  have hw := (sound_of_run h' hr hs).2
  refine ⟨fun ref info hi => (hs.fit hi).alive, fun ref info info' hi hi' => ?_,
    fun _ _ _ _ _ _ hmem => hs.hits hmem⟩
  obtain ⟨info₀, hi₀, hle⟩ := hw.hp_le hi' (hr.lt_idGenerator (GameRoom.registered_of_info? hi))
  obtain rfl := Option.some.inj (hi.symm.trans hi₀)
  exact hle

/-- The server after the first blow of the assault. -/
def struck : World :=
  ([RoomEvent.enterRoom 0, .enterRoom 1] ++ blow).foldl RoomEvent.act (World.init {})

theorem health_of_run_assaulted : ∃ info info', struck.room.info? (.monster 1) = some info ∧
    assaulted.room.info? (.monster 1) = some info' ∧
      (1 ≤ info'.hp ∧ info'.hp ≤ info.hp ∧ info.hp ≤ info.maxhp) := by
  have hstruck : RoomReachable (.always .accepted) {} struck := roomRun_acts (by decide +kernel)
  have hrest : assaulted = (blow ++ blow).foldl RoomEvent.act struck := by
    rw [assaulted, struck, assault, ← List.foldl_append, List.append_assoc, List.append_assoc]
  have hassaulted : Reaches (RoomStep (.always .accepted)) (fun _ _ => True) struck assaulted := by
    rw [hrest]
    exact roomRun_acts (by decide +kernel)
  have hinfo : (struck.room.info? (.monster 1)).isSome = true := by decide +kernel
  have hinfo' : (assaulted.room.info? (.monster 1)).isSome = true := by decide +kernel
  obtain ⟨info, hinfo⟩ := Option.isSome_iff_exists.1 hinfo
  obtain ⟨info', hinfo'⟩ := Option.isSome_iff_exists.1 hinfo'
  obtain ⟨hfit, hle, -⟩ := health_of_run hstruck hassaulted
  have hfit' := (health_of_run roomRun_assaulted (.refl _)).1 _ info' hinfo'
  exact ⟨info, info', hinfo, hinfo', hfit'.1, hle _ info info' hinfo hinfo',
    (hfit _ info hinfo).2⟩

end Zelda.Server
