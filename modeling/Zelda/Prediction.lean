import Zelda.Skirmish

/-!
# Fights that the client foretells

A creature that the client has removed by itself should have left the room once nothing is under
way. It has, as long as every removal is justified: at any time it has left already, or is a monster
whose hp the packets charged with it take (`Owed`).

Main result: `predictions_of_run`.
-/

namespace Zelda.Server

open Protocol Std
open Client (SceneManager Frame Drift)

variable {P : Platform} {w w' : World} {s : SessionId} {id : ObjectId} {tilemap : Tilemap}

namespace Skirmish

variable {k k' k₀ : Skirmish} {state state' : ObjectId → Option Int32} {up : List Packet}
  {cellPos : Vec2Int} {defence : Int32} {live : ObjectId → Prop}

/-! ## What the packets under way owe -/

theorem swingDamage_nonneg (pkt : CMove) (defence : Int32) : 0 ≤ swingDamage pkt defence := by
  rw [swingDamage, damageOf]
  split
  · rename_i hlt
    exact Int.le_trans (by decide) (Int32.le_iff_toInt_le.1 (Int32.le_of_lt hlt))
  · decide

theorem due_cons (id : ObjectId) (defence : Int32) (p : Packet) (up : List Packet) :
    due id defence (p :: up) =
      (if id ∈ p.owes then swingDamage p.pkt defence else 0) + due id defence up := by
  rw [due, List.map_cons, List.sum_cons, due]

theorem due_append (id : ObjectId) (defence : Int32) (up ps : List Packet) :
    due id defence (up ++ ps) = due id defence up + due id defence ps := by
  rw [due, List.map_append, List.sum_append, due, due]

theorem due_of_free {ps : List Packet} (h : ∀ p ∈ ps, p.owes = []) : due id defence ps = 0 := by
  induction ps with
  | nil => rfl
  | cons p ps ih =>
    rw [due_cons, ih fun q hq => h q (List.mem_cons_of_mem p hq), h p List.mem_cons_self,
      if_neg List.not_mem_nil, add_zero]

/-- What is owed is owed by somebody. -/
theorem exists_owes_of_due (h : 0 < due id defence up) : ∃ p ∈ up, id ∈ p.owes := by
  induction up with
  | nil => exact absurd h (lt_irrefl 0)
  | cons p up ih =>
    rw [due_cons] at h
    split at h
    · rename_i hmem
      exact ⟨p, List.mem_cons_self, hmem⟩
    · obtain ⟨q, hq, hmem⟩ := ih (by omega)
      exact ⟨q, List.mem_cons_of_mem p hq, hmem⟩

/-- Charging takes no debt away. -/
theorem due_le_charge {v : ObjectId} :
    due id defence up ≤ due id defence (charge v cellPos state up) := by
  induction up generalizing state with
  | nil => exact le_rfl
  | cons p up ih =>
    have hpos := swingDamage_nonneg p.pkt defence
    rw [charge, due_cons, due_cons]
    refine add_le_add ?_ ih
    by_cases hbegins : Begins state p.pkt ∧ p.pkt.info.getFrontCellPos = cellPos
    · rw [if_pos hbegins]
      split
      · rename_i hmem
        exact (if_pos (List.mem_cons_of_mem v hmem)).ge
      · split
        · exact hpos
        · exact le_rfl
    · rw [if_neg hbegins]

/-- The packets that are charged owe their damage. -/
theorem assaults_le_due_charge :
    ((assaults cellPos state up).map (swingDamage · defence)).sum ≤
      due id defence (charge id cellPos state up) := by
  induction up generalizing state with
  | nil => exact le_rfl
  | cons p up ih =>
    have hpos := swingDamage_nonneg p.pkt defence
    rw [assaults, charge, due_cons]
    by_cases hbegins : Begins state p.pkt ∧ p.pkt.info.getFrontCellPos = cellPos
    · rw [if_pos hbegins, if_pos hbegins, List.map_cons, List.sum_cons, if_pos List.mem_cons_self]
      exact add_le_add le_rfl ih
    · rw [if_neg hbegins, if_neg hbegins]
      refine le_add_of_nonneg_of_le ?_ ih
      split
      · exact hpos
      · exact le_rfl

/-! ## The edges that the packets are charged for -/

/-- Each packet that is charged with somebody who is still there begins an attack. -/
def Edges (live : ObjectId → Prop) : (ObjectId → Option Int32) → List Packet → Prop
  | _, [] => True
  | state, p :: ps => ((∃ id ∈ p.owes, live id) → Begins state p.pkt) ∧
      Edges live (after state p.pkt) ps

theorem Edges.charge (h : Edges live state up) (v : ObjectId) (cellPos : Vec2Int) :
    Edges live state (charge v cellPos state up) := by
  induction up generalizing state with
  | nil => trivial
  | cons p up ih =>
    obtain ⟨hp, hrest⟩ := h
    rw [Skirmish.charge]
    split
    · rename_i hbegins
      exact ⟨fun _ => hbegins.1, ih hrest⟩
    · exact ⟨hp, ih hrest⟩

theorem Edges.append (h : Edges live state up) {ps : List Packet} (hps : ∀ p ∈ ps, p.owes = []) :
    Edges live state (up ++ ps) := by
  induction up generalizing state with
  | nil =>
    clear h
    induction ps generalizing state with
    | nil => trivial
    | cons p ps ih =>
      refine ⟨?_, ih fun q hq => hps q (List.mem_cons_of_mem p hq)⟩
      rintro ⟨id, hid, -⟩
      rw [hps p List.mem_cons_self] at hid
      exact absurd hid List.not_mem_nil
  | cons p up ih => exact ⟨h.1, ih h.2⟩

/-- Edges stay as long as nobody else turns the states of their players to `SKILL`. -/
theorem Edges.mono {live' : ObjectId → Prop} (h : Edges live state up)
    (hlive : ∀ p ∈ up, ∀ id ∈ p.owes, live' id → live id)
    (hstate : ∀ p ∈ up, (∃ id ∈ p.owes, live' id) → state' p.pkt.info.objectid = some skill →
      state p.pkt.info.objectid = some skill) : Edges live' state' up := by
  induction up generalizing state state' with
  | nil => trivial
  | cons p up ih =>
    obtain ⟨hp, hrest⟩ := h
    refine ⟨?_, ih hrest (fun q hq => hlive q (List.mem_cons_of_mem p hq))
      fun q hq hcharged hskill => ?_⟩
    · rintro ⟨id, hid, hlive'⟩
      have hbegins := hp ⟨id, hid, hlive p List.mem_cons_self id hid hlive'⟩
      refine ⟨fun hskill => hbegins.1 ?_, hbegins.2⟩
      exact hstate p List.mem_cons_self ⟨id, hid, hlive'⟩ hskill
    · by_cases hsame : q.pkt.info.objectid = p.pkt.info.objectid
      · rwa [after, hsame, Function.update_self] at hskill ⊢
      · rw [after, Function.update_of_ne hsame] at hskill ⊢
        exact hstate q (List.mem_cons_of_mem p hq) hcharged hskill

/-! ## What every step keeps -/

/-- What holds of every state, whatever the client removes. -/
structure Sane (s : SessionId) (k : Skirmish) : Prop where
  registry : Registry k.world
  sound : Sound k.world
  housed : Housed k.world
  known : k.world.Known
  fallen : FallenGone k.world
  gameRoom : (k.world.sessions s).gameRoom = true
  ids : ∀ id ∈ k.client.scene.ids, id < k.world.idGenerator
  removed : ∀ id ∈ k.removed, id < k.world.idGenerator

theorem Sane.ticked (h : k.Sane s) {t : Client.DevScene.Ticked}
    (hids : t.scene.ids ⊆ k.client.scene.ids)
    (hremoved : ∀ v, t.removed = some v → v.info.objectid ∈ k.client.scene.ids) :
    (k.ticked t).Sane s :=
  { h with
    ids := fun id hid => h.ids id (hids hid)
    removed := by
      intro id hid
      rcases List.mem_append.1 hid with hid | hid
      · exact h.removed id hid
      · obtain ⟨v, hv, rfl⟩ := List.mem_map.1 hid
        exact h.ids _ (hremoved v (Option.mem_toList.1 hv)) }

theorem Sane.server (h : k.Sane s) {ev : ServerEvent} (hs : ServerStep P k.world ev w')
    (up : List Packet) : Sane s { k with up := up, world := w' } where
  registry := hs.registry h.registry
  sound := hs.sound h.registry h.sound
  housed := hs.housed h.registry h.housed
  known := hs.known h.registry h.known
  fallen := hs.fallenGone h.registry h.fallen
  gameRoom := hs.gameRoom h.registry h.gameRoom
  ids id hid := (h.ids id hid).trans_le (hs.idGenerator_le h.registry)
  removed id hid := (h.removed id hid).trans_le (hs.idGenerator_le h.registry)

theorem Sane.message (h : k.Sane s) {msg : ServerPacket} {client : SceneManager}
    (hmsg : (sentTo s k.world.trace)[k.handled]? = some msg)
    (hclient : client = k.client.handlePacket msg) (handled : ℕ) :
    Sane s { k with client := client, handled := handled } :=
  { h with
    ids := by
      intro id hid
      rw [hclient] at hid
      rcases SceneManager.ids_handlePacket hid with hid | ⟨info, hinfo, rfl⟩
      · exact h.ids id hid
      · exact h.known s msg (mem_sentTo (List.mem_of_getElem? hmsg)) info hinfo }

theorem Sane.render (h : k.Sane s) {objects : List Client.Actor}
    (hperm : objects.Perm k.client.scene.objects) : Sane s { k with
      client := { k.client with scene := k.client.scene.mapObjects fun _ => objects } } :=
  { h with
    ids := by
      intro id hid
      simp only [Client.DevScene.ids, Client.DevScene.objects_mapObjects] at hid
      obtain ⟨actor, hactor, hkey⟩ := Keyed.mem_keys.1 hid
      exact h.ids id (Keyed.mem_keys.2 ⟨actor, hperm.subset hactor, hkey⟩) }

theorem Step.sane {ev : Event} (hs : Step P s k ev k') (h : k.Sane s) : k'.Sane s := by
  cases hs with
  | tick =>
    refine h.ticked Client.DevScene.ids_tickActor fun v hv => ?_
    obtain ⟨o, -, hremoves⟩ := Client.DevScene.removed_tickActor.1 hv
    exact Client.DevScene.mem_ids_removes hremoves
  | tickGone =>
    refine h.ticked Client.DevScene.ids_tickGone fun v hv => ?_
    exact Client.DevScene.mem_ids_removes (Client.DevScene.removed_tickGone.1 hv)
  | endPass => exact { h with }
  | render hperm => exact h.render hperm
  | message hmsg hclient => exact h.message hmsg (SceneManager.eq_of_handlePacket? hclient) _
  | cMove _ hstep => exact h.server hstep _
  | server _ hstep => exact h.server hstep _

/-- Every creature that the client has removed has left the room, or is a monster whose hp the
packets charged with it take. -/
structure Owed (k : Skirmish) : Prop where
  edges : Edges (fun id => k.world.room.findObject id ≠ none) k.world.playerState k.up
  lt : ∀ p ∈ k.up, ∀ id ∈ p.owes, id < k.world.idGenerator
  owed : ∀ id ∈ k.removed, k.world.room.findObject id = none ∨
    ∃ m, k.world.room.info? (.monster id) = some m ∧ m.hp.toInt ≤ due id m.defence k.up

/-! ## The client removes somebody -/

theorem owes_lt_charge {v gen : ObjectId} (h : ∀ p ∈ up, ∀ id ∈ p.owes, id < gen) (hv : v < gen) :
    ∀ p ∈ charge v cellPos state up, ∀ id ∈ p.owes, id < gen := by
  induction up generalizing state with
  | nil => exact fun _ hp => absurd hp List.not_mem_nil
  | cons p up ih =>
    intro q hq id hid
    rcases List.mem_cons.1 hq with rfl | hq
    · split at hid
      · rcases List.mem_cons.1 hid with rfl | hid
        · exact hv
        · exact h p List.mem_cons_self id hid
      · exact h p List.mem_cons_self id hid
    · exact ih (fun q hq => h q (List.mem_cons_of_mem p hq)) q hq id hid

theorem Doomed.congr {v v' : Client.GameObject} (h : k.Doomed v)
    (hid : v'.info.objectid = v.info.objectid) (hcell : v'.info.getCellPos = v.info.getCellPos) :
    k.Doomed v' := by
  rwa [Doomed, hid, hcell]

/-- The creature that is removed is paid for, or has left. -/
theorem Doomed.owed {v : Client.GameObject} (h : k.Doomed v) (hfallen : FallenGone k.world) :
    k.world.room.findObject v.info.objectid = none ∨
      ∃ m, k.world.room.info? (.monster v.info.objectid) = some m ∧
        m.hp.toInt ≤ due v.info.objectid m.defence (k.charged (some v)) := by
  rcases h with hfell | ⟨m, hm, hhp⟩
  · exact .inl (hfallen _ hfell).2
  · exact .inr ⟨m, hm, hhp.trans assaults_le_due_charge⟩

theorem Owed.ticked (h : k.Owed) (hsane : k.Sane s) {t : Client.DevScene.Ticked}
    (hdoomed : ∀ v, t.removed = some v → k.Doomed v ∧ v.info.objectid < k.world.idGenerator) :
    (k.ticked t).Owed := by
  have hfree : ∀ p ∈ t.sent.toList.map ({ pkt := · } : CMove → Packet), p.owes = [] := by
    intro p hp
    obtain ⟨pkt, -, rfl⟩ := List.mem_map.1 hp
    rfl
  have hdue : ∀ id defence, due id defence (k.ticked t).up =
      due id defence (k.charged t.removed) := fun id defence => by
    rw [Skirmish.ticked, due_append, due_of_free hfree, add_zero]
  have hle : ∀ id defence, due id defence k.up ≤ due id defence (k.charged t.removed) := by
    intro id defence
    unfold charged
    split
    · exact le_rfl
    · exact due_le_charge
  refine ⟨Edges.append ?_ hfree, fun p hp id hid => ?_, fun id hid => ?_⟩
  · unfold charged
    split
    · exact h.edges
    · exact h.edges.charge _ _
  · rcases List.mem_append.1 hp with hp | hp
    · unfold charged at hp
      split at hp
      · exact h.lt p hp id hid
      · rename_i v hv
        exact owes_lt_charge h.lt (hdoomed v hv).2 p hp id hid
    · rw [hfree p hp] at hid
      exact absurd hid List.not_mem_nil
  · rcases List.mem_append.1 hid with hid | hid
    · refine (h.owed id hid).imp_right ?_
      rintro ⟨m, hm, hhp⟩
      exact ⟨m, hm, hhp.trans ((hle id m.defence).trans_eq (hdue id m.defence).symm)⟩
    · obtain ⟨v, hv, rfl⟩ := List.mem_map.1 hid
      have hremoved := Option.mem_toList.1 hv
      refine ((hdoomed v hremoved).1.owed hsane.fallen).imp_right ?_
      rintro ⟨m, hm, hhp⟩
      refine ⟨m, hm, hhp.trans_eq ?_⟩
      rw [hdue, hremoved]

/-! ## The server goes on -/

/-- A monster that has not left is still there. -/
theorem exists_monster {ev : ServerEvent} {m : ObjectInfo} (hs : ServerStep P w ev w')
    (hr : Registry w) (hm : w.room.info? (.monster id) = some m)
    (hstay : w'.room.findObject id ≠ none) : ∃ m', w'.room.info? (.monster id) = some m' := by
  obtain ⟨ref, hfind⟩ := Option.ne_none_iff_exists'.1 hstay
  obtain ⟨hid, hreg⟩ := GameRoom.findObject_eq_some hfind
  have hmonster := GameRoom.registered_of_info? hm
  have hlt : ref.id < w.idGenerator := by
    rw [hid]
    exact hr.lt_idGenerator hmonster
  have hold := hr.findObject (hs.registered hr hlt hreg)
  rw [hid] at hold
  rw [← Option.some.inj ((hr.findObject hmonster).symm.trans hold)] at hreg
  exact Option.isSome_iff_exists.1 hreg

/-- No step but a packet turns the state of a player to `SKILL`. -/
theorem playerState_of_skill {ev : ServerEvent} (hs : ServerStep P w ev w') (hr : Registry w)
    (hnot : ¬ Names id ev) (hskill : w'.playerState id = some skill) :
    w.playerState id = some skill := by
  obtain ⟨info, hi, hstate⟩ := Option.map_eq_some_iff.1 hskill
  have hreg : w'.room.Registered (.player id) := GameRoom.registered_of_info? hi
  have hold : w.room.Registered (.player id) := by
    rcases hs.change hr with
      ⟨w₁, w₂, hbefore, hedits, hafter⟩ | ⟨s, -, -, hc⟩ | ⟨s, pkt, -, rfl | hm⟩
    · rw [hafter.room] at hreg
      rw [← hbefore.room]
      exact hedits.registered hreg
    · rw [hc.room, GameRoom.info?_addPlayer] at hi
      split at hi
      · -- a player that has just entered stands still
        obtain rfl := Option.some.inj hi
        have hidle : idle = skill := hstate
        exact absurd hidle (by decide)
      · exact GameRoom.registered_of_info? hi
    · exact hreg
    · exact hm.registered hreg
  rwa [hs.playerState_of_not_names hr hnot (GameRoom.registered_player.1 hold)
    (GameRoom.registered_player.1 hreg)] at hskill

theorem Owed.server (h : k.Owed) (hsane : k.Sane s) {ev : ServerEvent}
    (hs : ServerStep P k.world ev w') (hjust : k.Justified (.server ev)) :
    Owed { k with world := w' } := by
  have hr := hsane.registry
  have hlive : ∀ id < k.world.idGenerator, w'.room.findObject id ≠ none →
      k.world.room.findObject id ≠ none := fun id hlt hstay hnone =>
    hstay (hs.findObject_eq_none hr hlt hnone)
  refine ⟨h.edges.mono (fun p hp id hid => hlive id (h.lt p hp id hid)) ?_, fun p hp id hid => ?_,
    fun id hid => ?_⟩
  · rintro p hp ⟨id, hid, hstay⟩
    exact playerState_of_skill hs hr (hjust p hp id hid (hlive id (h.lt p hp id hid) hstay)).2
  · exact (h.lt p hp id hid).trans_le (hs.idGenerator_le hr)
  · by_cases hstay : w'.room.findObject id = none
    · exact .inl hstay
    · have hthere := hlive id (hsane.removed id hid) hstay
      obtain ⟨m, hm, hhp⟩ := (h.owed id hid).resolve_left hthere
      obtain ⟨m', hm'⟩ := exists_monster hs hr hm hstay
      -- somebody owes the monster, so nobody else names it
      obtain ⟨p, hp, howes⟩ := exists_owes_of_due
        ((toInt_hp_pos (hsane.sound.fit hm).alive).trans hhp)
      have hnot := (hjust p hp id howes hthere).1
      obtain ⟨m₁, hm₁, hworn⟩ := hs.worn hr hsane.sound (by rintro t pkt rfl; exact hnot) hm'
      obtain rfl := Option.some.inj (hm.symm.trans hm₁)
      refine .inr ⟨m', hm', ?_⟩
      rw [hworn.defence]
      exact (Int32.le_iff_toInt_le.1 hworn.hp).trans hhp

/-! ## A packet is handled -/

/-- What a packet stores is what it says, and it stores no other state. -/
theorem playerState_of_cMove {pkt : CMove} (hs : ServerStep P w (.receiveCMove s pkt) w')
    (hr : Registry w) (hroom : (w.sessions s).gameRoom = true)
    (hskill : w'.playerState id = some skill) : after w.playerState pkt id = some skill := by
  by_cases hid : pkt.info.objectid = id
  · obtain ⟨info, hi, -⟩ := Option.map_eq_some_iff.1 hskill
    cases hs with
    | receiveCMove hok =>
      rw [receiveCMove, if_pos hroom] at hok
      have hm := handleCMove_ok hr hok
      obtain ⟨prev, hprev⟩ :=
        Option.isSome_iff_exists.1 (hm.registered (GameRoom.registered_of_info? hi))
      rw [← hid, after, Function.update_self, ← hm.playerState_self hr hprev hid, hskill]
  · rw [after, Function.update_of_ne (Ne.symm hid)]
    exact playerState_of_skill hs hr hid hskill

/-- The monster that a packet attacks pays what the packet is charged for. -/
theorem Meets.pays {p : Packet} {m m' : ObjectInfo} (h : Meets k.world p.pkt id)
    (hsane : k.Sane s) (hs : ServerStep P k.world (.receiveCMove s p.pkt) w')
    (hbegins : Begins k.world.playerState p.pkt)
    (hm : k.world.room.info? (.monster id) = some m)
    (hm' : w'.room.info? (.monster id) = some m') :
    m'.hp.toInt = m.hp.toInt - swingDamage p.pkt m.defence ∧ m'.defence = m.defence := by
  obtain ⟨hplayer, hfront⟩ := h
  obtain ⟨prev, hprev⟩ := Option.isSome_iff_exists.1 (GameRoom.registered_player.2 hplayer)
  have hbefore : prev.state ≠ skill := by
    intro hskill
    apply hbegins.1
    rw [World.playerState, hprev, Option.map_some, hskill]
  cases hs with
  | receiveCMove hok =>
    exact receiveCMove_hits hsane.registry hsane.sound hsane.housed hsane.gameRoom hprev hbefore
      hbegins.2 hfront hm hok hm'

theorem Owed.cMove (h : k.Owed) (hsane : k.Sane s) {p : Packet} {rest : List Packet}
    (hup : k.up = p :: rest) (hs : ServerStep P k.world (.receiveCMove s p.pkt) w')
    (hjust : k.Justified .cMove) : Owed { k with up := rest, world := w' } := by
  have hr := hsane.registry
  have hlive : ∀ id < k.world.idGenerator, w'.room.findObject id ≠ none →
      k.world.room.findObject id ≠ none := fun id hlt hstay hnone =>
    hstay (hs.findObject_eq_none hr hlt hnone)
  have hlt : ∀ q ∈ rest, ∀ id ∈ q.owes, id < k.world.idGenerator := fun q hq =>
    h.lt q (by rw [hup]; exact List.mem_cons_of_mem p hq)
  obtain ⟨hmeets, hother⟩ := hjust p rest hup
  have hedges := h.edges
  rw [hup] at hedges
  obtain ⟨hbegins, hedges⟩ := hedges
  refine ⟨hedges.mono (fun q hq id hid => hlive id (hlt q hq id hid)) ?_, fun q hq id hid => ?_,
    fun id hid => ?_⟩
  · exact fun q _ _ => playerState_of_cMove hs hr hsane.gameRoom
  · exact (hlt q hq id hid).trans_le (hs.idGenerator_le hr)
  · by_cases hstay : w'.room.findObject id = none
    · exact .inl hstay
    · have hthere := hlive id (hsane.removed id hid) hstay
      obtain ⟨m, hm, hhp⟩ := (h.owed id hid).resolve_left hthere
      obtain ⟨m', hm'⟩ := exists_monster hs hr hm hstay
      refine .inr ⟨m', hm', ?_⟩
      rw [hup, due_cons] at hhp
      by_cases howes : id ∈ p.owes
      · -- the packet is one of those that are charged
        obtain ⟨hpaid, hdefence⟩ := (hmeets id howes hthere).pays hsane hs
          (hbegins ⟨id, howes, hthere⟩) hm hm'
        rw [if_pos howes] at hhp
        rw [hdefence, hpaid]
        show _ ≤ due id m.defence rest
        omega
      · rw [if_neg howes, zero_add] at hhp
        obtain ⟨q, hq, howes⟩ := exists_owes_of_due
          ((toInt_hp_pos (hsane.sound.fit hm).alive).trans hhp)
        obtain ⟨m₁, hm₁, hworn⟩ := hs.worn hr hsane.sound
          (by rintro t pkt heq; cases heq; exact hother q hq id howes hthere) hm'
        obtain rfl := Option.some.inj (hm.symm.trans hm₁)
        rw [hworn.defence]
        exact (Int32.le_iff_toInt_le.1 hworn.hp).trans hhp

/-! ## Every run -/

theorem Step.owed {ev : Event} (hs : Step P s k ev k') (hsane : k.Sane s)
    (hjust : k.Justified ev) (h : k.Owed) : k'.Owed := by
  cases hs with
  | @tick id frame drift =>
    refine h.ticked hsane fun v hv => ?_
    obtain ⟨o, ho, hremoves⟩ := Client.DevScene.removed_tickActor.1 hv
    refine ⟨?_, hsane.ids _ (Client.DevScene.mem_ids_removes hremoves)⟩
    obtain ⟨v, hfatal, rfl⟩ := Client.DevScene.removes_iff.1 hremoves
    exact (hjust o v ho hfatal).congr (Client.GameObject.objectid_onDamaged v o)
      (Client.GameObject.getCellPos_onDamaged v o)
  | @tickGone o frame drift hgone =>
    refine h.ticked hsane fun v hv => ?_
    have hremoves := Client.DevScene.removed_tickGone.1 hv
    refine ⟨?_, hsane.ids _ (Client.DevScene.mem_ids_removes hremoves)⟩
    obtain ⟨v, hfatal, rfl⟩ := Client.DevScene.removes_iff.1 hremoves
    exact (hjust v hfatal).congr (Client.GameObject.objectid_onDamaged v o)
      (Client.GameObject.getCellPos_onDamaged v o)
  | endPass => exact { h with }
  | render => exact { h with }
  | message => exact { h with }
  | cMove hup hstep => exact h.cMove hsane hup hstep hjust
  | server _ hstep => exact h.server hsane hstep hjust

theorem Starts.sane (h : k.Starts P tilemap s) : k.Sane s where
  registry := registry_of_serverRun h.world (registry_init tilemap)
  sound := (sound_of_serverRun h.world).2
  housed := (housed_of_serverRun h.world).2
  known := known_of_serverRun h.world
  fallen := fallenGone_of_serverRun h.world
  gameRoom := by
    obtain ⟨pid, hs, -, -⟩ := h.agrees
    have hr := registry_of_serverRun h.world (registry_init tilemap)
    exact entered_of_serverRun h.world (hr.player_of_session hs)
  ids id hid := by
    obtain ⟨pid, -, hmirrors, -⟩ := h.agrees
    obtain ⟨info, hview⟩ := Option.isSome_iff_exists.1 ((hmirrors.mem_ids id).1 hid)
    obtain ⟨ref, rfl, hi⟩ := GameRoom.exists_ref_of_view hview
    have hregistry := registry_of_serverRun h.world (registry_init tilemap)
    exact hregistry.lt_idGenerator (GameRoom.registered_of_info? hi)
  removed id hid := by
    rw [h.removed] at hid
    exact absurd hid List.not_mem_nil

theorem Starts.owed (h : k.Starts P tilemap s) : k.Owed where
  edges := by
    rw [h.up]
    trivial
  lt p hp := by
    rw [h.up] at hp
    exact absurd hp List.not_mem_nil
  owed id hid := by
    rw [h.removed] at hid
    exact absurd hid List.not_mem_nil

/-- With no packet under way nothing is owed any more. -/
theorem Owed.foretold (h : k.Owed) (hsane : k.Sane s) (hup : k.up = []) : k.Foretold := by
  intro id hid
  refine (h.owed id hid).resolve_right ?_
  rintro ⟨m, hm, hhp⟩
  have hpos := toInt_hp_pos (hsane.sound.fit hm).alive
  rw [hup] at hhp
  have hzero : m.hp.toInt ≤ 0 := hhp
  omega

/-- **What the client foretells comes true**, in every run whose steps are justified: every creature
that the client has removed has left the room once nothing is under way. -/
theorem predictions_of_run (hstart : k₀.Starts P tilemap s)
    (h : Reaches (Step P s) Justified k₀ k) : Quiet s k → k.Foretold := by
  have hall : k.Sane s ∧ k.Owed :=
    h.invariant (I := fun k => k.Sane s ∧ k.Owed)
      (fun _ _ _ hI hjust hs => ⟨hs.sane hI.1, hs.owed hI.1 hjust hI.2⟩)
      ⟨hstart.sane, hstart.owed⟩
  exact fun hquiet => hall.2.foretold hall.1 hquiet.1

/-! ## Runs that can be computed -/

/-- The server after an event, if it is possible; `Update` is left out. -/
def serve (P : Platform) (w : World) : ServerEvent → Option World
  | .processConnect s => if w.sessions s = {} then (processConnect P s w).toOption else none
  | .disconnect s => (disconnect P s w).toOption
  | .receiveCMove s pkt => (receiveCMove P s pkt w).toOption
  | .processSend s numOfBytes => (processSend P s numOfBytes w).toOption
  | .update _ => none

/-- The skirmish after an event, if it is possible; ticks of removed actors and `Render` are left
out. -/
def perform (P : Platform) (s : SessionId) (k : Skirmish) : Event → Option Skirmish
  | .tick id frame drift => some (k.ticked (k.client.scene.tickActor id frame drift))
  | .tickGone .. | .render => none
  | .endPass => some { k with gone := [] }
  | .message => (sentTo s k.world.trace)[k.handled]?.bind fun msg =>
      (k.client.handlePacket? msg).map fun client =>
        { k with client := client, handled := k.handled + 1 }
  | .cMove =>
    match k.up with
    | [] => none
    | p :: rest => (receiveCMove P s p.pkt k.world).toOption.map fun w =>
        { k with up := rest, world := w }
  | .server ev =>
    if Receives s ev then none
    else (serve P k.world ev).map fun w => { k with world := w }

theorem serverStep_of_serve {ev : ServerEvent} (h : serve P w ev = some w') :
    ServerStep P w ev w' := by
  cases ev with
  | processConnect s =>
    rw [serve] at h
    split at h
    · rename_i hnew
      exact .processConnect hnew (toOption_eq_some h)
    · cases h
  | disconnect => exact .disconnect (toOption_eq_some h)
  | receiveCMove => exact .receiveCMove (toOption_eq_some h)
  | processSend => exact .processSend (toOption_eq_some h)
  | update => cases h

theorem step_of_perform {ev : Event} (h : k.perform P s ev = some k') : Step P s k ev k' := by
  cases ev with
  | tick id frame drift =>
    obtain rfl := Option.some.inj h
    exact .tick
  | tickGone | render => cases h
  | endPass =>
    obtain rfl := Option.some.inj h
    exact .endPass
  | message =>
    obtain ⟨msg, hmsg, hhandle⟩ := Option.bind_eq_some_iff.1 h
    obtain ⟨client, hclient, rfl⟩ := Option.map_eq_some_iff.1 hhandle
    exact .message hmsg hclient
  | cMove =>
    rw [perform] at h
    split at h
    · cases h
    · rename_i hup
      obtain ⟨w', hserve, rfl⟩ := Option.map_eq_some_iff.1 h
      exact .cMove hup (.receiveCMove (toOption_eq_some hserve))
  | server ev =>
    rw [perform] at h
    split at h
    · cases h
    · rename_i hother
      obtain ⟨w', hserve, rfl⟩ := Option.map_eq_some_iff.1 h
      exact .server hother (serverStep_of_serve hserve)

/-- The skirmish after an event. -/
def act (P : Platform) (s : SessionId) (k : Skirmish) (ev : Event) : Skirmish :=
  (k.perform P s ev).getD k

theorem step_act {ev : Event} (h : (k.perform P s ev).isSome = true) :
    Step P s k ev (k.act P s ev) := by
  obtain ⟨k', hk'⟩ := Option.isSome_iff_exists.1 h
  rw [act, hk']
  exact step_of_perform hk'

/-! ## A duel -/

/-- Session 0 has just connected and handled what it was sent. -/
def greeted : Skirmish where
  client := clientOf (afterConnect .accepted) 0
  handled := 4
  world := afterConnect .accepted

theorem starts_greeted : greeted.Starts (.always .accepted) {} 0 where
  world := .single (e := .processConnect 0) trivial (.processConnect rfl rfl)
  agrees := by
    have hconnected : Connected 0 (World.init {}) (afterConnect .accepted) :=
      processConnect_ok (P := .always .accepted) (registry_init {}) rfl rfl
    refine ⟨2, by decide, hconnected.mirrors (ready_init {}) rfl fun _ _ => rfl, ?_⟩
    intro info o hview ho
    have hinfo : (afterConnect .accepted).room.view 2 = some (enteringPlayer 2 0).info := by decide
    have hown : greeted.client.scene.getObject 2 =
        some (Client.ownPlayer (enteringPlayer 2 0).info) := rfl
    obtain rfl := Option.some.inj (hinfo.symm.trans hview)
    obtain rfl := Option.some.inj (hown.symm.trans ho)
    exact ⟨⟨rfl, rfl, by decide⟩, rfl, rfl, rfl, rfl, rfl, rfl⟩
  handled := by decide
  gone := rfl
  up := rfl
  removed := rfl

/-- Session 1 connects, and its player steps in front of the player of session 0. -/
def newcomer : List Event :=
  [.server (.processConnect 1), .message,
    .server (.receiveCMove 1 ⟨(enteringPlayer 3 1).info.setCellPos ⟨5, 4⟩⟩), .message]

/-- The player of session 0 begins an attack. -/
def beginSwing : List Event := [.tick 2 { keys := { spaceBar := true } } {}, .cMove, .message]

/-- The animation of the attack ends. -/
def endSwing : List Event := [.tick 2 { animationEnded := true } {}, .cMove, .message]

/-- Ten attacks, each of which takes 10 of the 100 hp that the client believes the other player to
have. -/
def duel : List Event := newcomer ++ (List.replicate 10 (beginSwing ++ endSwing)).flatten

/-- The client has removed the other player, which the server did not let it hurt. -/
theorem not_foretold_duel : ¬ ∀ P tilemap s k₀ k, Skirmish.Starts P tilemap s k₀ →
    Reaches (Step P s) (fun _ _ => True) k₀ k → Quiet s k → k.Foretold := by
  intro hall
  have hrun : Reaches (Step (.always .accepted) 0) (fun _ _ => True) greeted
      (duel.foldl (act (.always .accepted) 0) greeted) :=
    .of_follows (fun _ _ h => ⟨trivial, step_act h⟩) (by decide +kernel)
  obtain ⟨hquiet, hremoved, hthere⟩ : Quiet 0 (duel.foldl (act (.always .accepted) 0) greeted) ∧
      3 ∈ (duel.foldl (act (.always .accepted) 0) greeted).removed ∧
      (duel.foldl (act (.always .accepted) 0) greeted).world.room.findObject 3 ≠ none := by
    decide +kernel
  exact hthere (hall _ _ _ _ _ starts_greeted hrun hquiet 3 hremoved)

/-- Whether an event is justified. -/
def isJustified (k : Skirmish) : Event → Bool
  | .tick id frame drift =>
    (k.client.scene.tickActor id frame drift).removed.all fun v => decide (k.Doomed v)
  | .tickGone .. => false
  | .cMove =>
    match k.up with
    | [] => true
    | p :: rest => (p.owes.all fun id => decide (Meets k.world p.pkt id)) &&
        rest.all fun q => q.owes.all (p.pkt.info.objectid ≠ ·)
  | .server _ => k.up.all (·.owes.isEmpty)
  | _ => true

theorem justified_of_isJustified {ev : Event} (h : k.isJustified ev = true) : k.Justified ev := by
  cases ev with
  | tick id frame drift =>
    intro o v ho hfatal
    have hremoved : (k.client.scene.tickActor id frame drift).removed =
        some (v.onDamaged o).1 := Client.DevScene.removed_tickActor.2
      ⟨o, ho, Client.DevScene.removes_iff.2 ⟨v, hfatal, rfl⟩⟩
    rw [isJustified, hremoved] at h
    exact (of_decide_eq_true h).congr (Client.GameObject.objectid_onDamaged v o).symm
      (Client.GameObject.getCellPos_onDamaged v o).symm
  | tickGone => cases h
  | cMove =>
    intro p rest hup
    rw [isJustified, hup] at h
    obtain ⟨hmeets, hother⟩ := Bool.and_eq_true_iff.1 h
    refine ⟨fun id hid _ => of_decide_eq_true (List.all_eq_true.1 hmeets id hid), ?_⟩
    intro q hq id hid _
    exact of_decide_eq_true (List.all_eq_true.1 (List.all_eq_true.1 hother q hq) id hid)
  | server ev =>
    intro q hq id hid
    rw [List.isEmpty_iff.1 (List.all_eq_true.1 h q hq)] at hid
    exact absurd hid List.not_mem_nil
  | endPass | render | message => trivial

/-- The player of session 0 goes to the cell above the monster. -/
def approach : List Event :=
  (List.replicate 3 [.tick 2 { keys := { d := true }, canGo := fun _ => true } {},
    .tick 2 { arrived := true } {}]).flatten ++
  (List.replicate 2 [.tick 2 { keys := { s := true }, canGo := fun _ => true } {},
    .tick 2 { arrived := true } {}]).flatten ++
  List.replicate 10 .cMove ++ List.replicate 10 .message

/-- An attack whose packets are handled only after its end. -/
def lateSwing : List Event :=
  [.tick 2 { keys := { spaceBar := true } } {}, .tick 2 { animationEnded := true } {}, .cMove,
    .cMove, .message, .message, .message]

/-- Four attacks, each of which takes 15 of the 50 hp of the monster on both sides. -/
def hunted : Skirmish :=
  (approach ++ (List.replicate 4 lateSwing).flatten).foldl (act (.always .accepted) 0) greeted

/-- The client removes the monster, and then the server does. -/
theorem predictions_of_run_hunted : 1 ∈ hunted.removed ∧
    hunted.world.room.findObject 1 = none := by
  have hrun : Reaches (Step (.always .accepted) 0) Justified greeted hunted := by
    have hstep : ∀ (k : Skirmish) ev,
        (k.isJustified ev && (k.perform (.always .accepted) 0 ev).isSome) = true →
          k.Justified ev ∧ Step (.always .accepted) 0 k ev (k.act (.always .accepted) 0 ev) := by
      intro k ev h
      obtain ⟨hjust, hpossible⟩ := Bool.and_eq_true_iff.1 h
      exact ⟨justified_of_isJustified hjust, step_act hpossible⟩
    exact .of_follows hstep (by decide +kernel)
  obtain ⟨hquiet, hremoved⟩ : Quiet 0 hunted ∧ 1 ∈ hunted.removed := by decide +kernel
  exact ⟨hremoved, predictions_of_run starts_greeted hrun hquiet 1 hremoved⟩

end Skirmish

end Zelda.Server
