import Zelda.Client.Mirror
import Zelda.Server.Delivery
import Zelda.Server.Health

/-!
# Replication

What a client has made of the packets sent to it mirrors the room (`RoomStep.synced`): as long as its
player is in the room, the client has one object for every registered object, and every object but
its own player shows what the room says about it. Whether the client gets there at all, without
reading a flipbook out of bounds, is left to `Replicas`.

All changes but one are announced as they are made (`Edit.replicated`). The exception is a move,
which writes to an object, lets it attack and announces it only then: meanwhile the object is dirty
(`Moved.replicated`). A client that enters is brought up to date first, and added after
(`Entered.replicated`).
-/

namespace Zelda.Server

open Protocol Std Client

variable {P : Platform} {w w' w₁ : World} {s : SessionId} {ref : ObjectRef} {pid : ObjectId}
  {info info₀ : ObjectInfo} {pkt : CMove} {tilemap : Tilemap} {dirty : ObjectId → Prop}

/-! ## The infos by id -/

namespace GameRoom

variable {r r' : GameRoom}

/-- The info of the object with this id. -/
def view (r : GameRoom) (id : ObjectId) : Option ObjectInfo :=
  (r.info? (.player id)).or (r.info? (.monster id))

theorem exists_ref_of_view {id : ObjectId} (h : r.view id = some info) :
    ∃ ref, ref.id = id ∧ r.info? ref = some info := by
  rcases Option.or_eq_some_iff.1 h with hp | ⟨-, hm⟩
  · exact ⟨.player id, rfl, hp⟩
  · exact ⟨.monster id, rfl, hm⟩

/-- The info of one object was set, or the object was taken away or added. -/
theorem view_update {x : Option ObjectInfo}
    (h : ∀ ref', r'.info? ref' = if ref' = ref then x else r.info? ref')
    (hother : ∀ ref', ref'.id = ref.id → ref' ≠ ref → r.info? ref' = none) :
    r'.view = Function.update r.view ref.id x := by
  funext id
  rcases eq_or_ne id ref.id with rfl | hne
  · rw [Function.update_self, view]
    cases ref with
    | player id =>
      have hnone := hother (.monster id) rfl ObjectRef.noConfusion
      show (r'.info? (.player id)).or (r'.info? (.monster id)) = x
      rw [h, h, if_pos rfl, if_neg ObjectRef.noConfusion, hnone, Option.or_none]
    | monster id =>
      have hnone := hother (.player id) rfl ObjectRef.noConfusion
      show (r'.info? (.player id)).or (r'.info? (.monster id)) = x
      rw [h, h, if_neg ObjectRef.noConfusion, if_pos rfl, hnone, Option.none_or]
  · have hp : ObjectRef.player id ≠ ref := fun href => hne (congrArg ObjectRef.id href)
    have hm : ObjectRef.monster id ≠ ref := fun href => hne (congrArg ObjectRef.id href)
    rw [Function.update_of_ne hne, view, view, h, h, if_neg hp, if_neg hm]

end GameRoom

namespace Registry

/-- No other object has the id of a registered one. -/
theorem alone (h : Registry w) (hreg : w.room.Registered ref) {ref' : ObjectRef}
    (hid : ref'.id = ref.id) (hne : ref' ≠ ref) : w.room.info? ref' = none := by
  rw [Option.eq_none_iff_forall_ne_some]
  intro info hi
  have hfind := h.findObject (GameRoom.registered_of_info? hi)
  rw [hid, h.findObject hreg] at hfind
  exact hne (Option.some.inj hfind).symm

theorem view_of_info? (h : Registry w) (hi : w.room.info? ref = some info) :
    w.room.view ref.id = some info := by
  have hself : w.room.view = Function.update w.room.view ref.id (some info) := by
    refine GameRoom.view_update (fun ref' => ?_) fun ref' => h.alone (GameRoom.registered_of_info? hi)
    split
    · rename_i href
      rw [href, hi]
    · rfl
  rw [hself, Function.update_self]

theorem isSome_view (w : World) (id : ObjectId) :
    (w.room.view id).isSome = true ↔ id ∈ w.room.players ∨ id ∈ w.room.monsters := by
  rw [← GameRoom.registered_player, ← GameRoom.registered_monster, GameRoom.view]
  simp [GameRoom.Registered]

end Registry

/-! ## Packets sent to a session -/

/-- The packet, if the event is a send to this session. -/
def Event.packetTo (s : SessionId) : Event → Option ServerPacket
  | .send t pkt => if t = s then some pkt else none
  | _ => none

/-- The packets that were sent to a session, in order. -/
def sentTo (s : SessionId) (trace : List Event) : List ServerPacket :=
  trace.filterMap (Event.packetTo s)

/-- The client of a session after it has handled every packet that was sent to it. -/
def clientOf (w : World) (s : SessionId) : SceneManager :=
  ({} : SceneManager).replay (sentTo s w.trace)

theorem sentTo_append (s : SessionId) (l l' : List Event) :
    sentTo s (l ++ l') = sentTo s l ++ sentTo s l' := List.filterMap_append

theorem sentTo_of_forall {evs : List Event} (h : ∀ e ∈ evs, e.packetTo s = none) :
    sentTo s evs = [] := List.filterMap_eq_nil_iff.2 h

theorem mem_sentTo {trace : List Event} {msg : ServerPacket} (h : msg ∈ sentTo s trace) :
    .send s msg ∈ trace := by
  obtain ⟨event, hevent, hto⟩ := List.mem_filterMap.1 h
  cases event with
  | send t pkt =>
    rw [Event.packetTo] at hto
    split at hto
    · rename_i hts
      obtain rfl := Option.some.inj hto
      exact hts ▸ hevent
    · cases hto
  | processSkill | applyDamage => cases hto

/-- Everybody in the room is sent an announcement once, and nobody else. -/
theorem sentTo_announce {r : GameRoom} (hnodup : r.audience.Nodup) (s : SessionId)
    (pkt : ServerPacket) : sentTo s (r.announce pkt) = if s ∈ r.audience then [pkt] else [] := by
  unfold GameRoom.announce
  generalize r.audience = audience at hnodup ⊢
  induction audience with
  | nil => rfl
  | cons t l ih =>
    obtain ⟨hmem, hl⟩ := List.nodup_cons.1 hnodup
    have hcons : sentTo s (.send t pkt :: l.map (.send · pkt)) =
        ((if t = s then some pkt else none).toList) ++ sentTo s (l.map (.send · pkt)) := by
      by_cases hts : t = s <;> simp [sentTo, Event.packetTo, hts]
    rw [List.map_cons, hcons, ih hl]
    rcases eq_or_ne t s with rfl | hne
    · simp [hmem]
    · simp [hne, hne.symm]

theorem clientOf_of_trace {evs : List Event} (h : w'.trace = w.trace ++ evs) :
    clientOf w' s = (clientOf w s).replay (sentTo s evs) := by
  rw [clientOf, h, sentTo_append, SceneManager.replay, List.foldl_append]
  rfl

/-- A client in the room has handled the announcement. -/
theorem clientOf_of_announce {r : GameRoom} {msg : ServerPacket}
    (hq : Quiet w₁ w' (r.announce msg)) (htrace : w₁.trace = w.trace) (hnodup : r.audience.Nodup)
    (hs : r.session? pid = some s) : clientOf w' s = (clientOf w s).handlePacket msg := by
  have hmem : s ∈ r.audience := GameRoom.mem_audience.2 ⟨pid, hs⟩
  have hall : w'.trace = w.trace ++ r.announce msg := by rw [hq.trace, htrace]
  rw [clientOf_of_trace hall, sentTo_announce hnodup, if_pos hmem]
  rfl

/-! ## What players are armed with -/

/-- Players have the attack and the defence of a weapon. -/
def Equipped (w : World) : Prop :=
  ∀ ref info, w.room.info? ref = some info → info.objecttype = objectTypePlayer →
    (info.attack, info.defence) ∈ [((15 : Int32), (5 : Int32)), (12, 3), (18, 2)]

theorem plain_of_sound (hs : Sound w) (he : Equipped w) (hi : w.room.info? ref = some info) :
    Plain info := by
  intro htype
  obtain ⟨h₁, h₂⟩ := (hs.fit hi).alive
  refine ⟨Int32.not_le_zero h₁, h₂, ?_⟩
  have hmem := he ref info hi htype
  simp only [List.mem_cons, List.not_mem_nil, or_false, Prod.mk.injEq] at hmem
  rcases hmem with ⟨ha, hd⟩ | ⟨ha, hd⟩ | ⟨ha, hd⟩ <;>
  · rw [ha, hd]
    decide

theorem Edit.equipped (he : Edit w w') (h : Equipped w) : Equipped w' := by
  intro ref info' hi htype
  obtain ⟨info, hold, hc⟩ := he.change hi
  cases hc with
  | same => exact h ref info' hold htype
  | hurt ha hpos => exact h ref info hold htype
  | act hbody =>
    rw [hbody.attack, hbody.defence]
    exact h ref info hold (hbody.objecttype ▸ htype)

theorem Edits.equipped (he : Edits w w') (h : Equipped w) : Equipped w' := by
  induction he with
  | refl => exact h
  | tail _ he ih => exact he.equipped ih

theorem Equipped.moveInfo (h : Equipped w) (ref : ObjectRef) (pkt : CMove) :
    Equipped (w.modifyInfo ref (moveInfo pkt)) := by
  intro ref' info hi htype
  rw [World.info?_modifyInfo] at hi
  split at hi
  · obtain ⟨prev, hprev, rfl⟩ := Option.map_eq_some_iff.1 hi
    rw [moveInfo_attack, moveInfo_defence]
    rcases resolveWeaponStat_cases pkt.info.attack with hr | hr | hr <;>
    · rw [hr]
      decide
  · exact h ref' info hi htype

theorem Equipped.of_room (h : Equipped w) (hroom : w'.room = w.room) : Equipped w' := by
  intro ref info hi
  exact h ref info (hroom ▸ hi)

theorem Entered.equipped (he : Entered s w w') (h : Equipped w) : Equipped w' := by
  intro ref info hi htype
  rw [he.info?] at hi
  split at hi
  · obtain rfl := Option.some.inj hi
    exact List.mem_cons_self
  · exact h ref info hi htype

/-! ## Mirrors -/

/-- The client of every session whose player is in the room mirrors the room. -/
def Replicated (dirty : ObjectId → Prop) (w : World) : Prop :=
  ∀ s pid, w.room.session? pid = some s → Mirrors pid dirty (clientOf w s) w.room.view

theorem Replicated.mono {dirty' : ObjectId → Prop} (h : Replicated dirty w)
    (hdirty : ∀ id, dirty id → dirty' id) : Replicated dirty' w :=
  fun s pid hs => (h s pid hs).mono hdirty

/-- What holds of every state that a run of the room reaches, besides its clients being mirrors. -/
structure Ready (w : World) : Prop where
  registry : Registry w
  sound : Sound w
  equipped : Equipped w

theorem Ready.plain (h : Ready w) (hi : w.room.info? ref = some info) : Plain info :=
  plain_of_sound h.sound h.equipped hi

theorem Edit.ready (he : Edit w w') (h : Ready w) : Ready w' :=
  ⟨he.registry h.registry, (he.sound h.sound).1, he.equipped h.equipped⟩

/-- The info of an object has changed, and everybody has been told. -/
theorem Replicated.move (h : Replicated dirty w) (hr : Registry w)
    (hi : w.room.info? ref = some info₀) (hq : Quiet w₁ w' (w₁.room.announce (.sMove info)))
    (hr₁ : Registry w₁) (htrace : w₁.trace = w.trace)
    (hroom : ∀ ref', w₁.room.info? ref' = if ref' = ref then some info else w.room.info? ref')
    (hsession : ∀ id, w₁.room.session? id = w.room.session? id)
    (hid : info.objectid = info₀.objectid) (htype : info.objecttype = info₀.objecttype)
    (hplain : Plain info) : Replicated (fun id => dirty id ∧ id ≠ ref.id) w' := by
  intro s pid hs
  rw [hq.room] at hs ⊢
  have hview : w₁.room.view = Function.update w.room.view ref.id (some info) :=
    GameRoom.view_update hroom fun ref' => hr.alone (GameRoom.registered_of_info? hi)
  rw [clientOf_of_announce hq htrace hr₁.toLinked.nodup_audience hs, hview]
  exact (h s pid (hsession pid ▸ hs)).move (hr.view_of_info? hi) (hid.trans (hr.objectid hi))
    (hr.objectid hi) htype hplain

/-- Something is noted in the trace that is no send. -/
theorem Replicated.log (h : Replicated dirty w) {e : Event} (he : ∀ s, e.packetTo s = none) :
    Replicated dirty (w.log e) := by
  intro s pid hs
  rw [clientOf_of_trace rfl, sentTo_of_forall]
  · exact h s pid hs
  · intro e' he'
    rw [List.mem_singleton.1 he']
    exact he s

/-- An object has been erased, and everybody has been told. -/
theorem Replicated.erase (h : Replicated dirty w) (hr : Registry w)
    (hreg : w.room.Registered ref) (hids : w.idGenerator ≤ 2 ^ 31)
    (hq : Quiet (w.erase ref) w' ((w.erase ref).room.announce (.sRemoveObject [ref.id]))) :
    Replicated dirty w' := by
  intro s pid hs
  rw [hq.room] at hs ⊢
  obtain ⟨info, hi⟩ := Option.isSome_iff_exists.1 hreg
  have hview : (w.erase ref).room.view = Function.update w.room.view ref.id none :=
    GameRoom.view_update (fun ref' => World.info?_erase) fun ref' => hr.alone hreg
  have hs₀ : w.room.session? pid = some s := by
    rw [World.session?_erase] at hs
    split at hs
    · cases hs
    · exact hs
  rw [clientOf_of_announce hq rfl (hr.erase ref).toLinked.nodup_audience hs, hview]
  exact (h s pid hs₀).remove (hr.view_of_info? hi) (Nat.lt_of_lt_of_le (hr.lt_idGenerator hreg) hids)

theorem Edit.replicated (he : Edit w w') (h : Ready w) (hids : w.idGenerator ≤ 2 ^ 31)
    (hrep : Replicated dirty w) : Replicated dirty w' := by
  have hr := h.registry
  have hready := he.ready h
  -- an edit leaves no object dirty that was not dirty before
  have hclean : ∀ {ref : ObjectRef}, Replicated (fun id => dirty id ∧ id ≠ ref.id) w' →
      Replicated dirty w' := fun h => h.mono fun _ hd => hd.1
  cases he with
  | skill => exact hrep.log fun _ => rfl
  | damage => exact hrep.log fun _ => rfl
  | @hurt _ _ victim a v ha hv hpos hq =>
    have hroom : ∀ ref', (w.modifyInfo victim (·.setHp (hpAfter a v))).room.info? ref' =
        if ref' = victim then some (v.setHp (hpAfter a v)) else w.room.info? ref' :=
      World.info?_modifyInfo_of_info? hv
    have hi' : w'.room.info? victim = some (v.setHp (hpAfter a v)) := by
      rw [hq.room, hroom, if_pos rfl]
    exact hclean (hrep.move hr hv hq (hr.modifyInfo fun _ => ⟨rfl, rfl⟩) rfl hroom
      World.session?_modifyInfo rfl rfl (hready.plain hi'))
  | erase hreg hq => exact hrep.erase hr hreg hids hq
  | @think id m f hm hbody hdir hcell =>
    have hi : w.room.info? (.monster id) = some m.info := GameRoom.info?_of_monster hm
    intro s pid hs
    have hview : (w.modifyMonster id f).room.view =
        Function.update w.room.view (ObjectRef.monster id).id (some (f m).info) := by
      exact GameRoom.view_update (World.info?_modifyMonster_of_getElem? hm) fun ref' =>
        hr.alone (GameRoom.registered_of_info? hi)
    rw [hview]
    refine (hrep s pid hs).change (hr.view_of_info? hi) hbody.objectid hbody.objecttype
      fun o ho => .inr ?_
    exact ho.congr hbody.objectid hbody.objecttype hdir hcell hbody.hp hbody.maxhp hbody.attack
      hbody.defence
  | @act _ id m f hm hbody hcell hq =>
    have hi : w.room.info? (.monster id) = some m.info := GameRoom.info?_of_monster hm
    have hroom : ∀ ref', (w.modifyMonster id f).room.info? ref' =
        if ref' = .monster id then some (f m).info else w.room.info? ref' :=
      World.info?_modifyMonster_of_getElem? hm
    have hi' : w'.room.info? (.monster id) = some (f m).info := by rw [hq.room, hroom, if_pos rfl]
    exact hclean (hrep.move hr hi hq (hr.modifyMonster_body hm hbody) rfl hroom (fun _ => rfl)
      hbody.objectid hbody.objecttype (hready.plain hi'))
  | announce hinfo hq =>
    exact hclean (hrep.move hr hinfo hq hr rfl (World.info?_eq_ite hinfo) (fun _ => rfl) rfl rfl
      (h.plain hinfo))

theorem Edits.replicated (he : Edits w w') (h : Ready w) (hids : w.idGenerator ≤ 2 ^ 31)
    (hrep : Replicated dirty w) : Ready w' ∧ Replicated dirty w' := by
  have hall : Ready w' ∧ w'.idGenerator ≤ 2 ^ 31 ∧ Replicated dirty w' := by
    induction he with
    | refl => exact ⟨h, hids, hrep⟩
    | tail _ he ih =>
      obtain ⟨h₁, hids₁, hrep₁⟩ := ih
      exact ⟨he.ready h₁, he.idGenerator.le.trans hids₁, he.replicated h₁ hids₁ hrep₁⟩
  exact ⟨hall.1, hall.2.2⟩

/-! ## Moves -/

theorem Moved.ready (hm : Moved pkt w w') (h : Ready w) : Ready w' := by
  refine ⟨hm.registry h.registry, (hm.sound h.sound).1, ?_⟩
  cases hm with
  | absent => exact h.equipped
  | @moved ref _ _ _ _ _ hattack _ hq =>
    exact (hattack.edits.equipped (h.equipped.moveInfo ref pkt)).of_room hq.room

/-- The object that a packet names is dirty until it is announced at the end. -/
theorem Moved.replicated (hm : Moved pkt w w') (h : Ready w) (hids : w.idGenerator ≤ 2 ^ 31)
    (hrep : Replicated (fun _ => False) w) : Replicated (fun _ => False) w' := by
  have hr := h.registry
  have hready' := hm.ready h
  cases hm with
  | absent => exact hrep
  | @moved ref prev w₁ _ hfind hprev hattack hcalm hq =>
    have hroom : ∀ ref', (w.modifyInfo ref (moveInfo pkt)).room.info? ref' =
        if ref' = ref then some (moveInfo pkt prev) else w.room.info? ref' :=
      World.info?_modifyInfo_of_info? hprev
    have hset : Replicated (· = ref.id) (w.modifyInfo ref (moveInfo pkt)) := by
      intro s pid hs
      rw [World.session?_modifyInfo] at hs
      have hview : (w.modifyInfo ref (moveInfo pkt)).room.view =
          Function.update w.room.view ref.id (some (moveInfo pkt prev)) :=
        GameRoom.view_update hroom fun ref' => hr.alone (GameRoom.registered_of_info? hprev)
      rw [hview]
      exact ((hrep s pid hs).mono fun _ => False.elim).change (hr.view_of_info? hprev)
        (moveInfo_objectid pkt prev) (moveInfo_objecttype pkt prev) fun _ _ => .inl rfl
    have hready₀ : Ready (w.modifyInfo ref (moveInfo pkt)) :=
      ⟨hr.moveInfo, (h.sound.moveInfo_weakens ref pkt).1, h.equipped.moveInfo ref pkt⟩
    obtain ⟨hready₁, hrep₁⟩ := hattack.edits.replicated hready₀ hids hset
    have hinfo : w₁.room.info? ref = some (moveInfo pkt prev) := by
      rw [hattack.info?_self hr.moveInfo, hroom, if_pos rfl]
    rw [hinfo, Option.getD_some] at hq
    have hclean := hrep₁.move hready₁.registry hinfo hq hready₁.registry rfl
      (World.info?_eq_ite hinfo) (fun _ => rfl) rfl rfl (hready₁.plain hinfo)
    exact hclean.mono fun id hd => hd.2 hd.1

/-! ## Entries -/

/-- Sessions without a player have been sent nothing by the room. -/
def Unheard (w : World) : Prop :=
  ∀ s, (w.sessions s).player = none → sentTo s w.trace = []

theorem Unheard.announce {r : GameRoom} {msg : ServerPacket} (h : Unheard w)
    (hq : Quiet w₁ w' (r.announce msg)) (hr₁ : Registry w₁) (hr : w₁.room = r)
    (htrace : w₁.trace = w.trace) (hplayer : ∀ s, (w₁.sessions s).player = (w.sessions s).player) :
    Unheard w' := by
  intro s hs
  rw [hq.player, hplayer] at hs
  rw [hq.trace, htrace, sentTo_append, h s hs, List.nil_append,
    sentTo_announce (hr ▸ hr₁.toLinked.nodup_audience), if_neg]
  intro hmem
  obtain ⟨id, hid⟩ := GameRoom.mem_audience.1 hmem
  rw [← hplayer, hr₁.player_of_session (hr ▸ hid)] at hs
  cases hs

theorem Edit.unheard (he : Edit w w') (hr : Registry w) (h : Unheard w) : Unheard w' := by
  cases he with
  | skill id =>
    intro s hs
    rw [World.trace_log, sentTo_append, h s hs]
    rfl
  | damage ha hv =>
    intro s hs
    rw [World.trace_log, sentTo_append, h s hs]
    rfl
  | hurt _ _ _ hq =>
    exact h.announce hq (hr.modifyInfo fun _ => ⟨rfl, rfl⟩) rfl rfl fun _ => rfl
  | erase _ hq => exact h.announce hq (hr.erase _) rfl rfl fun _ => rfl
  | think => exact h
  | act hm hbody _ hq => exact h.announce hq (hr.modifyMonster_body hm hbody) rfl rfl fun _ => rfl
  | announce _ hq => exact h.announce hq hr rfl rfl fun _ => rfl

theorem Edits.unheard (he : Edits w w') (hr : Registry w) (h : Unheard w) : Unheard w' := by
  have hall : Registry w' ∧ Unheard w' := by
    induction he with
    | refl => exact ⟨hr, h⟩
    | tail _ he ih => exact ⟨he.registry ih.1, he.unheard ih.1 ih.2⟩
  exact hall.2

theorem Moved.unheard (hm : Moved pkt w w') (hr : Registry w) (h : Unheard w) : Unheard w' := by
  cases hm with
  | absent => exact h
  | @moved ref _ _ _ _ _ hattack _ hq =>
    have hset : Unheard (w.modifyInfo ref (moveInfo pkt)) := h
    exact (hattack.edits.unheard hr.moveInfo hset).announce hq (hattack.edits.registry hr.moveInfo)
      rfl rfl fun _ => rfl

namespace Registry

/-- The room goes through every id once. -/
theorem nodup_refs (h : Registry w) : (w.room.refs.map ObjectRef.id).Nodup := by
  have hids : w.room.refs.map ObjectRef.id = w.room.players.keys ++ w.room.monsters.keys := by
    rw [GameRoom.refs, List.map_append, List.map_map, List.map_map]
    exact congrArg₂ (· ++ ·) (List.map_id _) (List.map_id _)
  rw [hids, List.nodup_append]
  refine ⟨ExtTreeMap.nodup_keys, ExtTreeMap.nodup_keys, ?_⟩
  rintro id hp _ hm rfl
  exact h.disjoint (ExtTreeMap.mem_keys.1 hp) (ExtTreeMap.mem_keys.1 hm)

theorem objectid_infos (h : Registry w) :
    w.room.infos.map (·.objectid) = w.room.refs.map ObjectRef.id := by
  have key : ∀ l : List ObjectRef, (∀ ref ∈ l, w.room.Registered ref) →
      (l.filterMap w.room.info?).map (·.objectid) = l.map ObjectRef.id := by
    intro l
    induction l with
    | nil => exact fun _ => rfl
    | cons ref l ih =>
      intro hreg
      obtain ⟨info, hinfo⟩ := Option.isSome_iff_exists.1 (hreg ref List.mem_cons_self)
      rw [List.filterMap_cons_some hinfo, List.map_cons, List.map_cons, h.objectid hinfo,
        ih fun ref' hmem => hreg ref' (List.mem_cons_of_mem _ hmem)]
  exact key _ fun ref hmem => GameRoom.mem_refs.1 hmem

end Registry

theorem Entered.view_eq (he : Entered s w w') (hr : Registry w) : w'.room.view =
    Function.update w.room.view w.idGenerator (some (enteringPlayer w.idGenerator s).info) := by
  show _ = Function.update w.room.view (ObjectRef.player w.idGenerator).id _
  refine GameRoom.view_update he.info? fun ref hid _ => ?_
  -- the id of the new player is new
  rw [Option.eq_none_iff_forall_ne_some]
  intro info hi
  have hlt := hr.lt_idGenerator (GameRoom.registered_of_info? hi)
  rw [hid] at hlt
  exact absurd hlt (lt_irrefl _)

theorem Registry.view_idGenerator (hr : Registry w) : w.room.view w.idGenerator = none := by
  rw [Option.eq_none_iff_forall_ne_some]
  intro info hi
  obtain ⟨ref, hid, hinfo⟩ := GameRoom.exists_ref_of_view hi
  have hlt := hr.lt_idGenerator (GameRoom.registered_of_info? hinfo)
  rw [hid] at hlt
  exact absurd hlt (lt_irrefl _)

theorem Entered.session? (he : Entered s w w') (id : ObjectId) : w'.room.session? id =
    if id = w.idGenerator then some s else w.room.session? id := by
  rw [he.room_eq, GameRoom.session?_addPlayer]
  rfl

theorem Entered.ready (he : Entered s w w') (h : Ready w) (hs : (w.sessions s).player = none) :
    Ready w' :=
  ⟨he.registry h.registry hs, (he.sound h.sound).1, he.equipped h.equipped⟩

theorem plain_enteringPlayer (id : ObjectId) (s : SessionId) : Plain (enteringPlayer id s).info := by
  intro _
  show ¬ (100 : Int32) ≤ 0 ∧ (100 : Int32) ≤ 100 ∧ (15 : Int32) ≠ 0 ∧ (5 : Int32) ≠ 0
  decide

/-- The client that enters is told of itself, of everybody else, and of itself once more. -/
theorem Entered.mirrors_self (he : Entered s w w') (h : Ready w)
    (hs : (w.sessions s).player = none) (hnew : clientOf w s = {}) :
    Mirrors w.idGenerator dirty (clientOf w' s) w'.room.view := by
  have hr := h.registry
  have hmem : s ∈ w'.room.audience := by
    rw [GameRoom.mem_audience]
    exact ⟨w.idGenerator, by rw [he.session?, if_pos rfl]⟩
  have hnodup := (he.registry hr hs).toLinked.nodup_audience
  have hclient : clientOf w' s =
      (((({} : SceneManager).handleSMyPlayer (enteringPlayer w.idGenerator s).info).handleSAddObject
        w.room.infos).addObject (enteringPlayer w.idGenerator s).info) := by
    rw [clientOf_of_trace he.trace_eq, hnew, sentTo_append, sentTo_announce hnodup, if_pos hmem]
    simp [sentTo, Event.packetTo]
    rfl
  have hstart : Mirrors w.idGenerator dirty
      (({} : SceneManager).handleSMyPlayer (enteringPlayer w.idGenerator s).info)
      (Function.update (fun _ => none) w.idGenerator (some (enteringPlayer w.idGenerator s).info)) :=
    Mirrors.start rfl
  have hids : ∀ id, id ∈ w.room.infos.map (·.objectid) ↔ (w.room.view id).isSome = true := by
    intro id
    rw [List.mem_map, Option.isSome_iff_exists]
    constructor
    · rintro ⟨info, hinfo, rfl⟩
      obtain ⟨ref, hi⟩ := GameRoom.mem_infos.1 hinfo
      exact ⟨info, by rw [hr.objectid hi, hr.view_of_info? hi]⟩
    · rintro ⟨info, hview⟩
      obtain ⟨ref, rfl, hi⟩ := GameRoom.exists_ref_of_view hview
      exact ⟨info, GameRoom.mem_infos.2 ⟨ref, hi⟩, hr.objectid hi⟩
  have hold : ∀ info ∈ w.room.infos, info.objectid ≠ w.idGenerator := by
    intro info hinfo heq
    have hsome := (hids info.objectid).1 (List.mem_map_of_mem hinfo)
    rw [heq, hr.view_idGenerator] at hsome
    cases hsome
  have hall : Mirrors w.idGenerator dirty (((({} : SceneManager).handleSMyPlayer
      (enteringPlayer w.idGenerator s).info).handleSAddObject w.room.infos)) w'.room.view := by
    refine hstart.addObjects (by rw [hr.objectid_infos]; exact hr.nodup_refs) ?_ ?_ ?_
    · intro info hinfo
      obtain ⟨ref, hi⟩ := GameRoom.mem_infos.1 hinfo
      refine ⟨hold info hinfo, Function.update_of_ne (hold info hinfo) _ _, h.plain hi, ?_⟩
      rw [hr.objecttype hi]
      cases ref with
      | player => exact .inl rfl
      | monster => exact .inr rfl
    · intro info hinfo
      obtain ⟨ref, hi⟩ := GameRoom.mem_infos.1 hinfo
      rw [he.view_eq hr, Function.update_of_ne (hold info hinfo), hr.objectid hi,
        hr.view_of_info? hi]
    · intro id hid
      rw [he.view_eq hr]
      rcases eq_or_ne id w.idGenerator with rfl | hne
      · rw [Function.update_self, Function.update_self]
      · have hnone : w.room.view id = none := by
          rw [← Option.not_isSome_iff_eq_none, ← hids]
          exact hid
        rw [Function.update_of_ne hne, Function.update_of_ne hne, hnone]
  rw [hclient, hall.addObject_self rfl]
  exact hall

theorem Entered.replicated (he : Entered s w w') (h : Ready w)
    (hs : (w.sessions s).player = none) (hunheard : Unheard w)
    (hrep : Replicated dirty w) : Replicated dirty w' := by
  have hr := h.registry
  intro t pid ht
  rw [he.session?] at ht
  split at ht
  · rename_i hpid
    obtain rfl := Option.some.inj ht
    rw [hpid]
    exact he.mirrors_self h hs (by rw [clientOf, hunheard s hs]; rfl)
  · rename_i hpid
    -- somebody who was there before is told of the new player
    have hne : t ≠ s := by
      rintro rfl
      cases hs.symm.trans (hr.player_of_session ht)
    have hmem : t ∈ w'.room.audience := by
      rw [GameRoom.mem_audience]
      exact ⟨pid, by rw [he.session?, if_neg hpid, ht]⟩
    have hnodup := (he.registry hr hs).toLinked.nodup_audience
    have hclient : clientOf w' t =
        (clientOf w t).addObject (enteringPlayer w.idGenerator s).info := by
      rw [clientOf_of_trace he.trace_eq, sentTo_append, sentTo_announce hnodup, if_pos hmem]
      simp [sentTo, Event.packetTo, hne.symm]
      rfl
    rw [hclient, he.view_eq hr]
    exact (hrep t pid ht).addObject rfl (Ne.symm hpid) hr.view_idGenerator (plain_enteringPlayer _ _)
      (.inl rfl)

theorem Entered.unheard (he : Entered s w w') (hr : Registry w) (hs : (w.sessions s).player = none)
    (h : Unheard w) : Unheard w' := by
  have hr' := he.registry hr hs
  intro t ht
  have htrace := he.trace_eq
  obtain ⟨hsends, hadd⟩ := he
  have hplayer : (w'.sessions t).player = ((w.link s).sessions t).player :=
    (hadd.player t).trans (hsends.player t)
  have hne : t ≠ s := by
    rintro rfl
    rw [hplayer, World.player_link] at ht
    cases ht
  have hold : (w.sessions t).player = none := by
    rw [hplayer] at ht
    exact (congrArg GameSession.player (World.sessions_setSession_of_ne hne)).symm.trans ht
  have hmem : t ∉ w'.room.audience := by
    rw [GameRoom.mem_audience]
    rintro ⟨id, hid⟩
    cases ht.symm.trans (hr'.player_of_session hid)
  rw [htrace, sentTo_append, h t hold, sentTo_append, sentTo_announce hr'.toLinked.nodup_audience,
    if_neg hmem]
  simp [sentTo, Event.packetTo, hne.symm]

/-- The client of a session that has just connected mirrors the room. -/
theorem Connected.mirrors (hc : Connected s w w') (h : Ready w) (hs : (w.sessions s).player = none)
    (hunheard : Unheard w) : Mirrors w.idGenerator dirty (clientOf w' s) w'.room.view := by
  obtain ⟨hsend, henter⟩ := hc
  rename_i mid
  have hstill := (still_setConnected w s true).trans hsend.toStill
  have hready : Ready mid := by
    refine ⟨h.registry.of_still hstill, h.sound.of_still hstill fun e he => ?_,
      h.equipped.of_room hstill.room⟩
    obtain rfl := List.mem_singleton.1 he
    exact .inl ⟨s, _, rfl⟩
  have hmid : clientOf mid s = {} := by
    rw [clientOf_of_trace hstill.trace, clientOf, hunheard s hs]
    simp [sentTo, Event.packetTo]
    rfl
  rw [← hstill.idGenerator]
  refine henter.mirrors_self hready ?_ hmid
  rw [hstill.player]
  exact hs

/-! ## Every run -/

/-- A network on which every `WSASend` is accepted. -/
def Platform.accepting (pq : PriorityQueue PQNode PQNode.cost) : Platform where
  wsaSend _ _ := .accepted
  pq := pq

/-- The server after `GameRoom::Init`, with every session connected. -/
def World.opened (tilemap : Tilemap) : World :=
  { World.init tilemap with sessions := fun _ => { connected := true } }

theorem still_opened (tilemap : Tilemap) : Still (World.init tilemap) (World.opened tilemap) [] :=
  ⟨rfl, rfl, rfl, fun _ => rfl, fun _ => rfl⟩

theorem ready_init (tilemap : Tilemap) : Ready (World.init tilemap) where
  registry := registry_init tilemap
  sound := sound_init tilemap
  equipped ref info hi htype := by
    obtain ⟨-, rfl⟩ := info?_init hi
    exact absurd htype (by decide)

theorem ready_opened (tilemap : Tilemap) : Ready (World.opened tilemap) where
  registry := (ready_init tilemap).registry.of_still (still_opened tilemap)
  sound := (ready_init tilemap).sound.of_still (still_opened tilemap) fun _ he =>
    absurd he List.not_mem_nil
  equipped := (ready_init tilemap).equipped.of_room rfl

/-- What a step of the room preserves. -/
structure Synced (w : World) : Prop extends Ready w where
  unheard : Unheard w
  replicated : w.idGenerator ≤ 2 ^ 31 → Replicated (fun _ => False) w

theorem RoomStep.synced {ev : RoomEvent} (hs : RoomStep P w ev w') (h : Synced w) : Synced w' := by
  have hr := h.registry
  rcases hs.change hr with he | ⟨pkt, hm⟩ | ⟨s, hnew, he⟩
  · have hready : Ready w' :=
      ⟨he.registry hr, (he.sound h.sound).1, he.equipped h.equipped⟩
    refine ⟨hready, he.unheard hr h.unheard, fun hids => ?_⟩
    rw [he.idGenerator] at hids
    exact (he.replicated h.toReady hids (h.replicated hids)).2
  · refine ⟨hm.ready h.toReady, hm.unheard hr h.unheard, fun hids => ?_⟩
    rw [hm.idGenerator] at hids
    exact hm.replicated h.toReady hids (h.replicated hids)
  · refine ⟨he.ready h.toReady hnew, he.unheard hr hnew h.unheard, fun hids => ?_⟩
    rw [he.idGenerator] at hids
    exact he.replicated h.toReady hnew h.unheard (h.replicated (Nat.le_of_succ_le hids))

theorem synced_opened (tilemap : Tilemap) : Synced (World.opened tilemap) where
  toReady := ready_opened tilemap
  unheard _ _ := rfl
  replicated _ s pid hs := by
    have hplayers : (World.opened tilemap).room.players = ∅ := rfl
    rw [GameRoom.session?, hplayers] at hs
    simp at hs

end Zelda.Server
