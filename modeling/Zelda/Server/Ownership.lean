import Zelda.Server.Ghosts
import Zelda.Server.Health

/-!
# Who may change what

A `C_Move` names an object, and `Handle_C_Move` changes that object whoever sent the packet. What a
sender should be able to change is the info of its own player, and the hp of a monster that this
player hits (`OnlyOwnChanges`).

A packet respects this exactly when it names the sender's own player or no object of the room, or
only repeats what the named object already is (`Harmless`, `receiveCMove_onlyOwnChanges_iff`). The
comparison needs the objects to be fit (`Server/Health`), so that a repeated info is not cut down.
-/

namespace Zelda.Server

open Protocol

variable {P : Platform} {w w' : World} {s : SessionId} {ref : ObjectRef} {info : ObjectInfo}
  {pkt : CMove} {tilemap : Tilemap} {victim : ObjectId}

/-! ## Changes -/

/-- The object is the player of the session. -/
def Owns (w : World) (s : SessionId) (ref : ObjectRef) : Prop :=
  ∃ id, (w.sessions s).player = some id ∧ ref = .player id

/-- Between `w` and `w'` the attacker has hit the monster, which has a new hp or is gone. -/
structure Damaged (attacker : ObjectRef) (victim : ObjectId) (w w' : World) : Prop where
  hit : ∃ evs attack defence hp damage, w'.trace = w.trace ++ evs ∧
    .applyDamage attacker (.monster victim) attack defence hp damage ∈ evs
  outcome : w'.room.info? (.monster victim) = none ∨
    ∃ hp, w'.room.info? (.monster victim) = (w.room.info? (.monster victim)).map (·.setHp hp)

/-- Between `w` and `w'` no info changed but that of the player of the session, and that of a single
monster if this player has hit it. -/
def OnlyOwnChanges (s : SessionId) (w w' : World) : Prop :=
  ∃ victim, ∀ ref, w'.room.info? ref ≠ w.room.info? ref → Owns w s ref ∨
    ref = .monster victim ∧ ∃ attacker, Owns w s attacker ∧ Damaged attacker victim w w'

theorem OnlyOwnChanges.of_info? (h : ∀ ref, w'.room.info? ref = w.room.info? ref) :
    OnlyOwnChanges s w w' :=
  ⟨0, fun ref hne => absurd (h ref) hne⟩

theorem Damaged.of_log {attacker : ObjectRef} {e : Event}
    (h : Damaged attacker victim (w.log e) w') : Damaged attacker victim w w' := by
  obtain ⟨⟨evs, attack, defence, hp, damage, htrace, hmem⟩, houtcome⟩ := h
  refine ⟨⟨e :: evs, attack, defence, hp, damage, ?_, List.mem_cons_of_mem e hmem⟩, houtcome⟩
  rw [htrace, World.trace_log, List.append_assoc, List.singleton_append]

theorem Damaged.of_quiet {attacker : ObjectRef} {evs : List Event} {w₀ w₁ : World}
    (h : Damaged attacker victim (w₀.modifyInfo ref (moveInfo pkt)) w₁)
    (hkept : (w₀.modifyInfo ref (moveInfo pkt)).room.info? (.monster victim) =
      w₀.room.info? (.monster victim)) (hq : Quiet w₁ w' evs) :
    Damaged attacker victim w₀ w' := by
  obtain ⟨⟨evs', attack, defence, hp, damage, htrace, hmem⟩, houtcome⟩ := h
  have hmem' : Event.applyDamage attacker (.monster victim) attack defence hp damage ∈ evs' ++ evs :=
    List.mem_append_left _ hmem
  refine ⟨⟨_, attack, defence, hp, damage, ?_, hmem'⟩, ?_⟩
  · rw [hq.trace, htrace, List.append_assoc]
    rfl
  · rwa [hq.room, ← hkept]

/-- A hit on a monster changes nothing or damages it. -/
theorem Hit.damaged {attacker : ObjectRef} (h : Hit attacker (.monster victim) w w') :
    w' = w ∨ Damaged attacker victim w w' := by
  have hmem : ∀ {a v : ObjectInfo} {evs : List Event}, Event.applyDamage attacker (.monster victim)
      a.attack v.defence (clampedHp v) (damageOf a.attack v.defence) ∈
        [hitEvent attacker (.monster victim) a v] ++ evs :=
    fun {_ _ _} => List.mem_append_left _ (List.mem_singleton_self _)
  cases h with
  | missed => exact .inl rfl
  | @hurt a v _ ha hv hpos hq =>
    right
    refine ⟨⟨_, _, _, _, _, hq.trace.trans (List.append_assoc _ _ _), hmem⟩,
      .inr ⟨hpAfter a v, ?_⟩⟩
    rw [hq.room, World.info?_modifyInfo, if_pos rfl, World.room_log]
  | killed ha hv hzero hq =>
    right
    refine ⟨⟨_, _, _, _, _, hq.trace.trans (List.append_assoc _ _ _), hmem⟩, .inl ?_⟩
    rw [hq.room, World.info?_erase, if_pos rfl]

/-- An attack changes at most one monster, which it has hit. -/
theorem Attack.changes (ha : Attack ref w w') : ∃ victim, ∀ ref',
    w'.room.info? ref' ≠ w.room.info? ref' → ref' = .monster victim ∧ Damaged ref victim w w' := by
  cases ha with
  | none | missed => exact ⟨0, fun _ hne => absurd rfl hne⟩
  | @hit p id w' _ _ _ hhit =>
    refine ⟨id, fun ref' hne => ⟨?_, ?_⟩⟩
    · by_contra hother
      exact hne (hhit.info?_of_ne hother)
    · rcases hhit.damaged with rfl | hdamaged
      · exact absurd rfl hne
      · exact hdamaged.of_log

/-! ## Packets that repeat what is there -/

/-- The packet asks for what the object already is. -/
structure Repeats (pkt : CMove) (info : ObjectInfo) : Prop where
  state : pkt.info.state = info.state
  dir : pkt.info.dir = info.dir
  cellPos : pkt.info.getCellPos = info.getCellPos
  attack : (resolveWeaponStat pkt.info.attack).attack = info.attack
  defence : (resolveWeaponStat pkt.info.attack).defence = info.defence
  maxhp : pkt.info.maxhp ≤ 0 ∨ pkt.info.maxhp = info.maxhp

theorem Fit.maxhp (h : Fit info) : ¬ info.maxhp ≤ 0 :=
  Int32.not_le_zero (Int32.le_trans h.alive.1 h.alive.2)

theorem overwriteInfo_of_repeats (h : Repeats pkt info) (hfit : Fit info) :
    overwriteInfo pkt info = info := by
  have hset : ((info.setState pkt.info.state).setDir pkt.info.dir).setCellPos
      pkt.info.getCellPos = info := by
    rw [h.state, h.dir, h.cellPos]
    rfl
  have hsync : info.syncWeaponTemplate (resolveWeaponStat pkt.info.attack) = info := by
    rw [ObjectInfo.syncWeaponTemplate, if_neg hfit.maxhp, h.attack, h.defence]
  have hask : ¬ (0 < pkt.info.maxhp ∧ pkt.info.maxhp ≠ info.maxhp) := by
    rintro ⟨hpos, hne⟩
    rcases h.maxhp with hle | heq
    · exact absurd hpos (Int32.not_lt.2 hle)
    · exact hne heq
  simp only [overwriteInfo, hset, hsync, if_neg hask]

theorem clampHp_of_alive (weaponStat : WeaponStatData) (h : Alive info) :
    clampHp weaponStat info = info := by
  have hmax : ¬ info.maxhp ≤ 0 := Int32.not_le_zero (Int32.le_trans h.1 h.2)
  have hcut : ¬ (0 < info.maxhp ∧ info.maxhp < info.hp) :=
    fun hlt => absurd h.2 (Int32.not_le.2 hlt.2)
  simp only [clampHp, if_neg hmax, if_neg hcut, if_neg (Int32.not_neg_of_one_le h.1)]

theorem moveInfo_of_repeats (h : Repeats pkt info) (hfit : Fit info) : moveInfo pkt info = info := by
  rw [moveInfo, overwriteInfo_of_repeats h hfit, clampHp_of_alive _ hfit.alive]

theorem moveInfo_maxhp (pkt : CMove) (h : ¬ info.maxhp ≤ 0) : (moveInfo pkt info).maxhp =
    if 0 < pkt.info.maxhp ∧ pkt.info.maxhp ≠ info.maxhp then pkt.info.maxhp else info.maxhp := by
  have hclamp : ∀ stat info, (clampHp stat info).maxhp = info.maxhp := by
    intro stat info
    simp only [clampHp]
    split_ifs <;> rfl
  have hsync : (((info.setState pkt.info.state).setDir pkt.info.dir).setCellPos
      pkt.info.getCellPos |>.syncWeaponTemplate (resolveWeaponStat pkt.info.attack)).maxhp =
        info.maxhp := if_neg h
  rw [moveInfo, hclamp]
  simp only [overwriteInfo, hsync]
  split
  · rfl
  · exact hsync

/-- A move after which at most the hp is different asked for nothing. -/
theorem repeats_of_moveInfo {hp : Int32} (hfit : Fit info) (h : moveInfo pkt info = info.setHp hp) :
    Repeats pkt info := by
  refine ⟨?_, ?_, ?_, ?_, ?_, ?_⟩
  · rw [← moveInfo_state pkt info, h]
    rfl
  · rw [← moveInfo_dir pkt info, h]
    rfl
  · rw [← moveInfo_getCellPos pkt info, h]
    rfl
  · rw [← moveInfo_attack pkt info, h]
    rfl
  · rw [← moveInfo_defence pkt info, h]
    rfl
  · by_contra hnot
    obtain ⟨hpos, hne⟩ := not_or.1 hnot
    have hmoved := moveInfo_maxhp pkt hfit.maxhp
    rw [if_pos ⟨Int32.not_le.1 hpos, hne⟩, h] at hmoved
    exact hne hmoved.symm

/-! ## What a packet may do -/

/-- The packet names the sender's own player, or nothing, or asks for nothing new. -/
def Harmless (w : World) (s : SessionId) (pkt : CMove) : Prop :=
  (w.sessions s).gameRoom = true → ∀ ref info, w.room.findObject pkt.info.objectid = some ref →
    w.room.info? ref = some info → Owns w s ref ∨ Repeats pkt info

theorem Moved.onlyOwnChanges_iff (hm : Moved pkt w w') (hr : Registry w) (hs : Sound w) :
    OnlyOwnChanges s w w' ↔ ∀ ref info, w.room.findObject pkt.info.objectid = some ref →
      w.room.info? ref = some info → Owns w s ref ∨ Repeats pkt info := by
  cases hm with
  | absent hfind =>
    refine ⟨fun _ ref info hsome => ?_, fun _ => .of_info? fun _ => rfl⟩
    cases hfind.symm.trans hsome
  | @moved ref prev w₁ _ hfind hprev hattack hcalm hq =>
    obtain ⟨victim, hvictim⟩ := hattack.changes
    have hset : ∀ ref', (w.modifyInfo ref (moveInfo pkt)).room.info? ref' =
        if ref' = ref then some (moveInfo pkt prev) else w.room.info? ref' :=
      World.info?_modifyInfo_of_info? hprev
    constructor
    · rintro ⟨victim', honly⟩ ref' info hfind' hinfo
      obtain rfl := Option.some.inj (hfind.symm.trans hfind')
      obtain rfl := Option.some.inj (hprev.symm.trans hinfo)
      have hnow : w'.room.info? ref = some (moveInfo pkt prev) := by
        rw [hq.room, hattack.info?_self hr.moveInfo, hset, if_pos rfl]
      by_cases hsame : moveInfo pkt prev = prev
      · exact .inr (repeats_of_moveInfo (hs.fit hprev) hsame)
      · have hchanged : w'.room.info? ref ≠ w.room.info? ref := by
          rw [hnow, hprev]
          exact fun heq => hsame (Option.some.inj heq)
        rcases honly ref hchanged with howns | ⟨rfl, _, _, hdamaged⟩
        · exact .inl howns
        · -- nothing but the hp of a monster may change, but a move changes more
          rcases hdamaged.outcome with hnone | ⟨hp, hsome⟩
          · cases hnone.symm.trans hnow
          · rw [hnow, hprev] at hsome
            exact .inr (repeats_of_moveInfo (hs.fit hprev) (Option.some.inj hsome))
    · intro hall
      rcases hall ref prev hfind hprev with howns | hrepeats
      · refine ⟨victim, fun ref' hne => ?_⟩
        by_cases href : ref' = ref
        · exact .inl (href ▸ howns)
        · have hkept : (w.modifyInfo ref (moveInfo pkt)).room.info? ref' = w.room.info? ref' := by
            rw [hset, if_neg href]
          rw [hq.room, ← hkept] at hne
          obtain ⟨rfl, hdamaged⟩ := hvictim ref' hne
          exact .inr ⟨rfl, ref, howns, hdamaged.of_quiet hkept hq⟩
      · refine .of_info? fun ref' => ?_
        rw [hq.room, hcalm hrepeats.state.symm, hset, moveInfo_of_repeats hrepeats (hs.fit hprev)]
        split
        · rename_i href
          rw [href, hprev]
        · rfl

/-- **A handled packet changes only what its sender owns exactly when it is harmless**, in every
reachable state of the server, for every session and every packet. -/
theorem receiveCMove_onlyOwnChanges_iff (h : ServerReachable P tilemap w)
    (hs : ServerStep P w (.receiveCMove s pkt) w') :
    OnlyOwnChanges s w w' ↔ Harmless w s pkt := by
  obtain ⟨hr, hsound⟩ := sound_of_serverRun h
  cases hs with
  | receiveCMove hok =>
    rcases receiveCMove_cases hok with ⟨hroom, hhandle⟩ | ⟨hroom, rfl⟩
    · rw [(handleCMove_ok hr hhandle).onlyOwnChanges_iff hr hsound]
      exact ⟨fun hall _ => hall, fun hall => hall hroom⟩
    · exact iff_of_true (.of_info? fun _ => rfl) fun htrue => absurd htrue hroom

/-! ## A packet that moves the monster -/

/-- The first monster, sent to the corner of the map. -/
def moveMonster : CMove := ⟨firstMonster.info.setCellPos ⟨0, 0⟩⟩

/-- The first player, turned to the right. -/
def turnRight : CMove := ⟨(enteringPlayer 2 0).info.setDir dirRight⟩

/-- The server after session 0 has connected and sent one packet. -/
def afterPacket (pkt : CMove) : World :=
  Result.world (receiveCMove (.always .accepted) 0 pkt (afterConnect .accepted))

theorem serverReachable_afterConnect :
    ServerReachable (.always .accepted) {} (afterConnect .accepted) :=
  .single (e := .processConnect 0) trivial (.processConnect rfl rfl)

theorem serverStep_moveMonster : ServerStep (.always .accepted) (afterConnect .accepted)
    (.receiveCMove 0 moveMonster) (afterPacket moveMonster) := .receiveCMove rfl

theorem serverStep_turnRight : ServerStep (.always .accepted) (afterConnect .accepted)
    (.receiveCMove 0 turnRight) (afterPacket turnRight) := .receiveCMove rfl

/-- Session 0 moves the monster, without its player having hit it. -/
theorem not_onlyOwnChanges_moveMonster :
    ServerReachable (.always .accepted) {} (afterConnect .accepted) ∧
      ServerStep (.always .accepted) (afterConnect .accepted) (.receiveCMove 0 moveMonster)
        (afterPacket moveMonster) ∧
      ¬ OnlyOwnChanges 0 (afterConnect .accepted) (afterPacket moveMonster) := by
  refine ⟨serverReachable_afterConnect, serverStep_moveMonster, ?_⟩
  rintro ⟨victim, h⟩
  rcases h (.monster 1) (by decide) with ⟨id, -, hid⟩ | ⟨hvictim, _, _, hdamaged⟩
  · cases hid
  · obtain rfl := ObjectRef.monster.inj hvictim
    rcases hdamaged.outcome with hnone | ⟨hp, hsome⟩
    · exact absurd hnone (by decide)
    · have hposx : ((afterPacket moveMonster).room.info? (.monster 1)).map (·.posx) =
          ((afterConnect .accepted).room.info? (.monster 1)).map (·.posx) := by
        rw [hsome, Option.map_map]
        rfl
      exact absurd hposx (by decide)

theorem onlyOwnChanges_turnRight :
    OnlyOwnChanges 0 (afterConnect .accepted) (afterPacket turnRight) := by
  apply (receiveCMove_onlyOwnChanges_iff serverReachable_afterConnect serverStep_turnRight).2
  intro _ ref info hfind _
  have hself : (afterConnect .accepted).room.findObject turnRight.info.objectid =
      some (.player 2) := rfl
  obtain rfl := Option.some.inj (hself.symm.trans hfind)
  exact .inl ⟨2, rfl, rfl⟩

end Zelda.Server
