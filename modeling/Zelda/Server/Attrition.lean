import Zelda.Server.Between
import Zelda.Server.Deeds
import Zelda.Server.Health
import Zelda.Server.Removal
import Zelda.Server.Strikes

/-!
# How monsters fall

What others can rely on who know of a monster only what they have seen of it.

* `FallenGone`: an object whose last hp a hit has taken, or whose removal has been
  announced, has left the room for good.
* `ServerStep.worn`: a monster that no packet names loses hp at most.
* `receiveCMove_hits`: a packet that begins an attack on a monster takes its damage from the hp.
-/

namespace Zelda.Server

open Protocol Std

variable {P : Platform} {w w' : World} {s : SessionId} {id : ObjectId} {ref : ObjectRef}
  {info info' : ObjectInfo} {pkt : CMove} {evs : List Event} {tilemap : Tilemap}

/-! ## Who has fallen -/

/-- The event is a hit that takes the last hp of the object, or tells somebody that it is gone. -/
def Event.Ends (id : ObjectId) : Event → Prop
  | .applyDamage _ victim _ _ hp damage => victim.id = id ∧ hp - damage ≤ 0
  | .send _ (.sRemoveObject ids) => id ∈ ids
  | _ => False

instance (id : ObjectId) : DecidablePred (Event.Ends id)
  | .applyDamage .. => inferInstanceAs (Decidable (_ ∧ _))
  | .send _ (.sRemoveObject ids) => inferInstanceAs (Decidable (id ∈ ids))
  | .send _ (.sEnterGame ..) | .send _ (.sMyPlayer _) | .send _ (.sAddObject _)
  | .send _ (.sMove _) | .processSkill _ => inferInstanceAs (Decidable False)

/-- A hit has taken the last hp of the object, or somebody was told that it is gone. -/
def World.Fallen (w : World) (id : ObjectId) : Prop := ∃ e ∈ w.trace, e.Ends id

instance (w : World) (id : ObjectId) : Decidable (w.Fallen id) :=
  inferInstanceAs (Decidable (∃ e ∈ w.trace, e.Ends id))

/-- Who has fallen has had an id and has left the room. -/
def FallenGone (w : World) : Prop :=
  ∀ id, w.Fallen id → id < w.idGenerator ∧ w.room.findObject id = none

theorem FallenGone.of_trace (h : FallenGone w) (hids : w.idGenerator ≤ w'.idGenerator)
    (hgone : ∀ id < w.idGenerator, w.room.findObject id = none → w'.room.findObject id = none)
    (htrace : w'.trace = w.trace ++ evs)
    (hevs : ∀ e ∈ evs, ∀ id, e.Ends id → id < w'.idGenerator ∧ w'.room.findObject id = none) :
    FallenGone w' := by
  rintro id ⟨e, hmem, hends⟩
  rw [htrace, List.mem_append] at hmem
  rcases hmem with hold | hnew
  · obtain ⟨hlt, hnone⟩ := h id ⟨e, hold, hends⟩
    exact ⟨hlt.trans_le hids, hgone id hlt hnone⟩
  · exact hevs e hnew id hends

theorem ends_of_mem_announce {r : GameRoom} {msg : ServerPacket} {e : Event}
    (he : e ∈ r.announce msg) (hends : e.Ends id) : ∃ ids, msg = .sRemoveObject ids ∧ id ∈ ids := by
  obtain ⟨t, -, rfl⟩ := List.mem_map.1 he
  cases msg with
  | sRemoveObject ids => exact ⟨ids, rfl, hends⟩
  | sEnterGame | sMyPlayer | sAddObject | sMove => exact absurd hends not_false

/-- A hit that leaves hp does not end the object. -/
theorem not_ends_hitEvent {attacker victim : ObjectRef} {a v : ObjectInfo} (hpos : 0 < hpAfter a v) :
    ¬ (hitEvent attacker victim a v).Ends id := by
  rintro ⟨-, hle⟩
  have hle : clampedHp v - damageOf a.attack v.defence ≤ 0 := hle
  simp only [hpAfter] at hpos
  split at hpos
  · exact absurd hpos (by decide)
  · exact absurd hpos (Int32.not_lt.2 hle)

theorem Registry.findObject_erase (hr : Registry w) (hreg : w.room.Registered ref) :
    (w.erase ref).room.findObject ref.id = none := by
  rw [GameRoom.findObject_eq_none_iff]
  intro ref' hid hreg'
  rw [World.room_erase, GameRoom.registered_erase] at hreg'
  have hfind := hr.findObject hreg'.2
  rw [hid, hr.findObject hreg] at hfind
  exact hreg'.1 (Option.some.inj hfind).symm

/-- Who has left stays away, whatever happens to the others. -/
theorem findObject_eq_none_of_registered {r r' : GameRoom}
    (hreg : ∀ ref, ref.id = id → r'.Registered ref → r.Registered ref)
    (hnone : r.findObject id = none) : r'.findObject id = none := by
  rw [GameRoom.findObject_eq_none_iff] at hnone ⊢
  exact fun ref hid hreg' => hnone ref hid (hreg ref hid hreg')

theorem Hit.fallenGone {attacker victim : ObjectRef} (hhit : Hit attacker victim w w')
    (hr : Registry w) (h : FallenGone w) : FallenGone w' := by
  have hids := hhit.edits.idGenerator
  have hgone : ∀ id < w.idGenerator, w.room.findObject id = none →
      w'.room.findObject id = none := fun _ _ =>
    findObject_eq_none_of_registered fun _ _ => hhit.edits.registered
  cases hhit with
  | missed => exact h
  | hurt _ _ hpos hq =>
    refine h.of_trace hids.ge hgone (hq.trace.trans (List.append_assoc _ _ _)) ?_
    intro e he id hends
    rcases List.mem_append.1 he with he | he
    · cases List.mem_singleton.1 he
      exact absurd hends (not_ends_hitEvent hpos)
    · obtain ⟨_, heq, -⟩ := ends_of_mem_announce he hends
      cases heq
  | killed _ hv _ hq =>
    have hreg := GameRoom.registered_of_info? hv
    have hleft : victim.id < w'.idGenerator ∧ w'.room.findObject victim.id = none := by
      rw [hids, hq.room]
      exact ⟨hr.lt_idGenerator hreg, hr.findObject_erase hreg⟩
    refine h.of_trace hids.ge hgone (hq.trace.trans (List.append_assoc _ _ _)) ?_
    intro e he id hends
    rcases List.mem_append.1 he with he | he
    · cases List.mem_singleton.1 he
      exact hends.1 ▸ hleft
    · obtain ⟨_, heq, hid⟩ := ends_of_mem_announce he hends
      cases heq
      rw [List.mem_singleton.1 hid]
      exact hleft

theorem Deed.fallenGone (hd : Deed w w') (hr : Registry w) (h : FallenGone w) : FallenGone w' := by
  cases hd with
  | skill id =>
    refine h.of_trace le_rfl (fun _ _ hnone => hnone) (World.trace_log ..) fun e he id hends => ?_
    cases List.mem_singleton.1 he
    exact absurd hends not_false
  | hit hhit => exact hhit.fallenGone hr h
  | @leave _ id hreg hq =>
    refine h.of_trace hq.idGenerator.ge (fun _ _ => ?_) hq.trace fun e he id' hends => ?_
    · refine findObject_eq_none_of_registered fun ref _ hreg' => ?_
      rw [hq.room, World.room_erase, GameRoom.registered_erase] at hreg'
      exact hreg'.2
    · obtain ⟨_, heq, hid⟩ := ends_of_mem_announce he hends
      cases heq
      rw [List.mem_singleton.1 hid, hq.idGenerator, hq.room]
      exact ⟨hr.lt_idGenerator hreg, hr.findObject_erase hreg⟩
  | think =>
    refine h.of_trace le_rfl (fun _ _ => ?_) (List.append_nil _).symm fun e he =>
      absurd he List.not_mem_nil
    refine findObject_eq_none_of_registered fun ref _ hreg' => ?_
    rwa [World.room_modifyMonster, GameRoom.registered_modifyMonster] at hreg'
  | announce _ hq =>
    refine h.of_trace hq.idGenerator.ge (fun _ _ hnone => hq.room ▸ hnone) hq.trace
      fun e he id' hends => ?_
    obtain ⟨_, heq, -⟩ := ends_of_mem_announce he hends
    cases heq

theorem upheld_fallenGone : Upheld (fun _ => True) (fun _ => True) FallenGone where
  still {w w' s evs} hevs hq h := by
    refine h.of_trace hq.idGenerator.ge (fun _ _ hnone => hq.room ▸ hnone) hq.trace
      fun e he id hends => ?_
    cases List.mem_singleton.1 (hevs he)
    exact absurd hends not_false
  deed hr h hd := hd.fallenGone hr h
  move {w pkt} ref _ _ h := by
    refine h.of_trace le_rfl (fun _ _ => ?_) (List.append_nil _).symm fun e he =>
      absurd he List.not_mem_nil
    refine findObject_eq_none_of_registered fun ref' _ hreg => ?_
    rwa [World.room_modifyInfo, GameRoom.registered_modifyInfo] at hreg
  enter {w w' s} _ _ _ h he := by
    refine h.of_trace ?_ (fun id hlt => ?_) he.trace_eq fun e hmem id hends => ?_
    · rw [he.idGenerator]
      exact Nat.le_succ _
    · refine findObject_eq_none_of_registered fun ref hid hreg => he.registered ?_ hreg
      rwa [hid]
    · rw [List.mem_append, List.mem_cons, List.mem_singleton] at hmem
      rcases hmem with (rfl | rfl) | hmem
      · exact absurd hends not_false
      · exact absurd hends not_false
      · obtain ⟨_, heq, -⟩ := ends_of_mem_announce hmem hends
        cases heq

theorem ServerStep.fallenGone {ev : ServerEvent} (hs : ServerStep P w ev w') (hr : Registry w)
    (h : FallenGone w) : FallenGone w' :=
  upheld_fallenGone.serverStep hs (fun _ _ => trivial) (fun _ _ _ => trivial) hr h

theorem fallenGone_init (tilemap : Tilemap) : FallenGone (World.init tilemap) := by
  rintro id ⟨e, hmem, -⟩
  exact absurd hmem List.not_mem_nil

theorem fallenGone_of_serverRun (h : ServerReachable P tilemap w) : FallenGone w :=
  upheld_fallenGone.serverRun (fun _ _ _ => trivial) (fun _ _ _ _ => trivial) h
    (registry_init tilemap) (fallenGone_init tilemap)

/-! ## What a monster loses -/

/-- The object has lost hp at most. -/
structure Worn (info info' : ObjectInfo) : Prop where
  hp : info'.hp ≤ info.hp
  defence : info'.defence = info.defence

theorem Worn.refl (info : ObjectInfo) : Worn info info := ⟨Int32.le_refl _, rfl⟩

theorem Worn.trans {info'' : ObjectInfo} (h : Worn info info') (h' : Worn info' info'') :
    Worn info info'' :=
  ⟨Int32.le_trans h'.hp h.hp, h'.defence.trans h.defence⟩

theorem Change.worn (hc : Change w info info') (h : Sound w) (hi : w.room.info? ref = some info) :
    Worn info info' := by
  cases hc with
  | same => exact .refl info
  | hurt ha hpos =>
    exact ⟨Int32.le_of_lt (hpAfter_lt (h.fit ha).armed (h.fit hi) hpos).2, rfl⟩
  | act hbody => exact ⟨by rw [hbody.hp]; exact Int32.le_refl _, hbody.defence⟩

theorem Edits.worn (he : Edits w w') (h : Sound w) (hi : w'.room.info? ref = some info') :
    ∃ info, w.room.info? ref = some info ∧ Worn info info' := by
  induction he generalizing info' with
  | refl => exact ⟨info', hi, .refl info'⟩
  | tail hfirst hlast ih =>
    obtain ⟨info₁, hi₁, hc⟩ := hlast.change hi
    obtain ⟨info, hold, hworn⟩ := ih hi₁
    exact ⟨info, hold, hworn.trans (hc.worn (Edits.sound hfirst h).1 hi₁)⟩

theorem Moved.worn (hm : Moved pkt w w') (h : Sound w) (hne : pkt.info.objectid ≠ ref.id)
    (hi : w'.room.info? ref = some info') :
    ∃ info, w.room.info? ref = some info ∧ Worn info info' := by
  cases hm with
  | absent => exact ⟨info', hi, .refl info'⟩
  | @moved mover _ _ _ hfind _ hattack _ hq =>
    rw [hq.room] at hi
    obtain ⟨info, hinfo, hworn⟩ := hattack.edits.worn (h.moveInfo_weakens mover pkt).1 hi
    rw [World.info?_modifyInfo, if_neg] at hinfo
    · exact ⟨info, hinfo, hworn⟩
    · rintro rfl
      exact hne (GameRoom.findObject_eq_some hfind).1.symm

/-- **A monster that no packet names loses hp at most.** -/
theorem ServerStep.worn {ev : ServerEvent} (hs : ServerStep P w ev w') (hr : Registry w)
    (h : Sound w) (hnot : ∀ s pkt, ev = .receiveCMove s pkt → pkt.info.objectid ≠ id)
    (hi : w'.room.info? (.monster id) = some info') :
    ∃ info, w.room.info? (.monster id) = some info ∧ Worn info info' := by
  rcases hs.change hr with
    ⟨w₁, w₂, hbefore, hedits, hafter⟩ | ⟨s, -, -, hc⟩ | ⟨s, pkt, hev, rfl | hm⟩
  · rw [hafter.room] at hi
    rw [← hbefore.room]
    exact hedits.worn (h.of_still hbefore fun _ he => absurd he List.not_mem_nil) hi
  · rw [hc.room, GameRoom.info?_addPlayer, if_neg ObjectRef.noConfusion] at hi
    exact ⟨info', hi, .refl info'⟩
  · exact ⟨info', hi, .refl info'⟩
  · exact hm.worn h (hnot s pkt hev) hi

/-! ## What an attack takes -/

/-- The damage that the attack of a packet does. -/
def swingDamage (pkt : CMove) (defence : Int32) : ℤ :=
  (damageOf (resolveWeaponStat pkt.info.attack).attack defence).toInt

/-- A hit takes its damage, or the object. -/
theorem applyDamage_hits {attacker victim : ObjectRef} {a v : GameObject} (hr : Registry w)
    (h : Sound w) (ha : w.room.object? attacker = some a) (hv : w.room.object? victim = some v)
    (hroom : a.room = true) (hroom' : v.room = true)
    (hok : applyDamage P attacker victim w = .ok w') (hi : w'.room.info? victim = some info') :
    info'.hp.toInt = v.info.hp.toInt - (damageOf a.info.attack v.info.defence).toInt ∧
      info'.defence = v.info.defence := by
  have hainfo := GameRoom.info?_of_object? ha
  have hvinfo := GameRoom.info?_of_object? hv
  by_cases hzero : hpAfter a.info v.info ≤ 0
  · exact absurd (GameRoom.registered_of_info? hi)
      (applyDamage_killed hr ha hv hroom hroom' hzero hok)
  · have hstay : w'.room.info? victim = some (v.info.setHp (hpAfter a.info v.info)) := by
      simp only [applyDamage, ha, hv, hroom, hroom', Bool.true_eq_false, or_self, if_false,
        if_neg hzero] at hok
      have hr₁ : Registry ((w.log (hitEvent attacker victim a.info v.info)).modifyInfo victim
          (·.setHp (hpAfter a.info v.info))) :=
        (hr.of_quiet (.log w _)).modifyInfo fun _ => ⟨rfl, rfl⟩
      rw [(broadcast_ok hr₁.toLinked hok).room, World.info?_modifyInfo, if_pos rfl, World.room_log,
        hvinfo]
      rfl
    obtain rfl := Option.some.inj (hi.symm.trans hstay)
    have hhp := toInt_hpAfter (h.fit hainfo).armed (h.fit hvinfo)
    have hpos : 0 < (hpAfter a.info v.info).toInt :=
      Int32.lt_iff_toInt_lt.1 (Int32.not_le.1 hzero)
    refine ⟨?_, rfl⟩
    show (hpAfter a.info v.info).toInt = _
    omega

theorem getFrontCellPos_moveInfo (pkt : CMove) (info : ObjectInfo) :
    (moveInfo pkt info).getFrontCellPos = pkt.info.getFrontCellPos := by
  simp only [ObjectInfo.getFrontCellPos, moveInfo_dir, moveInfo_getCellPos]

/-- **A packet that begins an attack of a player on a monster** takes its damage, or the monster. -/
theorem receiveCMove_hits {prev : ObjectInfo} (hr : Registry w) (h : Sound w) (hh : Housed w)
    (hroom : (w.sessions s).gameRoom = true)
    (hprev : w.room.info? (.player pkt.info.objectid) = some prev) (hbefore : prev.state ≠ skill)
    (hafter : pkt.info.state = skill)
    (hfront : (w.modifyInfo (.player pkt.info.objectid) (moveInfo pkt)).room.getGameObjectAt
      pkt.info.getFrontCellPos = some (.monster id))
    (hm : w.room.info? (.monster id) = some info) (hok : receiveCMove P s pkt w = .ok w')
    (hi : w'.room.info? (.monster id) = some info') :
    info'.hp.toInt = info.hp.toInt - swingDamage pkt info.defence ∧
      info'.defence = info.defence := by
  rw [receiveCMove, if_pos hroom] at hok
  have hfind : w.room.findObject pkt.info.objectid = some (.player pkt.info.objectid) :=
    hr.findObject (GameRoom.registered_of_info? hprev)
  obtain ⟨w₁, hskill, hsay⟩ := handleCMove_found hfind hprev hok
  set w₀ := w.modifyInfo (.player pkt.info.objectid) (moveInfo pkt) with hw₀
  have hr₀ : Registry w₀ := hr.moveInfo
  have h₀ : Sound w₀ := (h.moveInfo_weakens _ pkt).1
  have hh₀ : Housed w₀ := (sameHomes_modifyInfo w _ _).housed hh
  have htype : (moveInfo pkt prev).objecttype = objectTypePlayer := by
    rw [moveInfo_objecttype]
    exact hr.objecttype hprev
  rw [if_pos ⟨htype, hbefore, (moveInfo_state pkt prev).trans hafter⟩] at hskill
  have hr₁ := (processSkill_moved hr hprev htype hskill).edits.registry hr₀
  rw [(broadcast_ok hr₁.toLinked hsay).room] at hi
  -- the player has been moved, and the monster is as it was
  have hself : w₀.room.info? (.player pkt.info.objectid) = some (moveInfo pkt prev) := by
    rw [hw₀, World.info?_modifyInfo_of_info? hprev, if_pos rfl]
  have hmonster : w₀.room.info? (.monster id) = some info := by
    rw [hw₀, World.info?_modifyInfo, if_neg ObjectRef.noConfusion, hm]
  obtain ⟨p, hp, hpinfo⟩ := Option.map_eq_some_iff.1 hself
  obtain ⟨m, hmo, hminfo⟩ := Option.map_eq_some_iff.1 hmonster
  have hattacks : Attacks w₀ (.player pkt.info.objectid) id p m := by
    refine ⟨hp, hh₀ _ p hp, ?_, hmo, hh₀ _ m hmo⟩
    rw [hpinfo, getFrontCellPos_moveInfo]
    exact hfront
  rcases processSkill_cases hr₀ hskill with ⟨-, hnone⟩ | ⟨id', p', m', hattacks', hhit⟩
  · exact absurd hattacks (hnone id p m)
  · obtain ⟨rfl, rfl, rfl⟩ := hattacks.unique hattacks'
    have hhits := applyDamage_hits (hr₀.of_quiet (.log w₀ _))
      (h₀.of_still (Quiet.log w₀ _).toStill fun e he => ?_) hp hmo (hh₀ _ p hp) (hh₀ _ m hmo) hhit hi
    · rwa [hpinfo, hminfo, moveInfo_attack] at hhits
    · exact .inr (.inl ⟨_, List.mem_singleton.1 he⟩)

end Zelda.Server
