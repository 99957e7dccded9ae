import Zelda.Server.Monster

/-!
# What the operations do, edit by edit

Between two messages an operation changes a single object, and the changes are of a few kinds only.
`Edit` lists them, each together with its broadcast; an operation that ends has made a sequence of
edits (`Edits`), so that an invariant of the room needs one case per kind of edit. The two changes
that come from outside, a player who enters and the fields that a packet sets, are kept apart from
them (`Entered`, `Moved`).

* `leaveRoom_edits`: leaving the room is edits, and so is its update (`Server/MonsterEdits`).
* `handleCMove_ok`: a move sets the object's info, then the attack it may start is edits, then the
  object is announced.
* `enterRoom_ok`: entering sends the room to the new player and adds it.

All of this is in rooms that are registered properly (`Registry`), which every edit keeps.
-/

namespace Zelda.Server

open Protocol Std

variable {P : Platform} {w w' w'' : World} {s : SessionId} {id : ObjectId} {ref : ObjectRef}
  {pkt : CMove} {evs : List Event}

/-! ## The registry -/

/-- Every object is registered once, in the map of its type, under its own id, and ids are handed
out in order. -/
structure Registry (w : World) : Prop extends Linked w where
  objectid : ∀ {ref info}, w.room.info? ref = some info → info.objectid = ref.id
  disjoint : ∀ {id}, id ∈ w.room.players → id ∉ w.room.monsters
  lt_idGenerator : ∀ {ref}, w.room.Registered ref → ref.id < w.idGenerator
  player_lt : ∀ {s id}, (w.sessions s).player = some id → id < w.idGenerator

namespace Registry

theorem of_still (h : Registry w) (hq : Still w w' evs) : Registry w' where
  toLinked := h.toLinked.of_still hq
  objectid hi := h.objectid (hq.room ▸ hi)
  disjoint hp := by rw [hq.room] at hp ⊢; exact h.disjoint hp
  lt_idGenerator hreg := by rw [hq.idGenerator]; exact h.lt_idGenerator (hq.room ▸ hreg)
  player_lt hp := by rw [hq.idGenerator]; exact h.player_lt (hq.player _ ▸ hp)

theorem of_quiet (h : Registry w) (hq : Quiet w w' evs) : Registry w' := h.of_still hq.toStill

theorem findObject (h : Registry w) (hreg : w.room.Registered ref) :
    w.room.findObject ref.id = some ref := by
  cases ref with
  | player id => exact if_pos (GameRoom.registered_player.1 hreg)
  | monster id =>
    have hm : id ∈ w.room.monsters := GameRoom.registered_monster.1 hreg
    have hp : id ∉ w.room.players := fun hp => h.disjoint hp hm
    exact (if_neg hp).trans (if_pos hm)

/-- A room with the same objects as before, each with its old id and type. -/
theorem of_room (h : Registry w) {r : GameRoom}
    (hs : ∀ id, r.session? id = w.room.session? id)
    (hi : ∀ ref info, r.info? ref = some info → ∃ info', w.room.info? ref = some info' ∧
      info.objectid = info'.objectid ∧ info.objecttype = info'.objecttype) :
    Registry (w.setRoom r) := by
  have hreg : ∀ ref, r.Registered ref → w.room.Registered ref := by
    intro ref hreg
    obtain ⟨info, hinfo⟩ := Option.isSome_iff_exists.1 hreg
    obtain ⟨info', hinfo', -⟩ := hi ref info hinfo
    exact GameRoom.registered_of_info? hinfo'
  have hplayers : ∀ id, id ∈ r.players → id ∈ w.room.players := fun id h =>
    GameRoom.registered_player.1 (hreg _ (GameRoom.registered_player.2 h))
  have hmonsters : ∀ id, id ∈ r.monsters → id ∈ w.room.monsters := fun id h =>
    GameRoom.registered_monster.1 (hreg _ (GameRoom.registered_monster.2 h))
  refine { player_of_session := ?_, objecttype := ?_, not_monster := ?_, objectid := ?_,
           disjoint := ?_, lt_idGenerator := ?_, player_lt := fun hp => h.player_lt hp }
  · intro id s ht
    exact h.player_of_session (hs id ▸ ht)
  · intro ref info hinfo
    obtain ⟨info', hinfo', -, htype⟩ := hi ref info hinfo
    exact htype.trans (h.objecttype hinfo')
  · intro s id hp hm
    exact h.not_monster hp (hmonsters id hm)
  · intro ref info hinfo
    obtain ⟨info', hinfo', hid, -⟩ := hi ref info hinfo
    exact hid.trans (h.objectid hinfo')
  · intro id hp hm
    exact h.disjoint (hplayers id hp) (hmonsters id hm)
  · intro ref hr
    exact h.lt_idGenerator (hreg ref hr)

theorem modifyInfo (h : Registry w) {f : ObjectInfo → ObjectInfo}
    (hf : ∀ info, (f info).objectid = info.objectid ∧ (f info).objecttype = info.objecttype) :
    Registry (w.modifyInfo ref f) := by
  refine h.of_room World.session?_modifyInfo ?_
  intro ref' info hi
  rw [GameRoom.info?_modifyInfo] at hi
  split at hi
  · rename_i heq
    obtain ⟨info', hinfo', rfl⟩ := Option.map_eq_some_iff.1 hi
    exact ⟨info', heq ▸ hinfo', hf info'⟩
  · exact ⟨info, hi, rfl, rfl⟩

theorem modifyMonster (h : Registry w) {f : Monster → Monster}
    (hf : ∀ m, w.room.monsters[id]? = some m →
      (f m).info.objectid = m.info.objectid ∧ (f m).info.objecttype = m.info.objecttype) :
    Registry (w.modifyMonster id f) := by
  refine h.of_room (fun _ => rfl) ?_
  intro ref' info hi
  rw [GameRoom.info?_modifyMonster] at hi
  split at hi
  · rename_i heq
    obtain ⟨m, hm, rfl⟩ := Option.map_eq_some_iff.1 hi
    exact ⟨m.info, heq ▸ GameRoom.info?_of_monster hm, hf m hm⟩
  · exact ⟨info, hi, rfl, rfl⟩

/-- A room without one of the objects. -/
theorem erase (h : Registry w) (ref : ObjectRef) : Registry (w.erase ref) := by
  have hreg : ∀ ref', (w.erase ref).room.Registered ref' → w.room.Registered ref' :=
    fun ref' h => (GameRoom.registered_erase.1 h).2
  refine { toLinked := h.toLinked.erase ref, objectid := ?_, disjoint := ?_, lt_idGenerator := ?_,
           player_lt := fun hp => h.player_lt hp }
  · intro ref' info hi
    rw [World.info?_erase] at hi
    split at hi
    · cases hi
    · exact h.objectid hi
  · intro id hp hm
    exact h.disjoint
      (GameRoom.registered_player.1 (hreg _ (GameRoom.registered_player.2 hp)))
      (GameRoom.registered_monster.1 (hreg _ (GameRoom.registered_monster.2 hm)))
  · intro ref' hr
    exact h.lt_idGenerator (hreg ref' hr)

end Registry

/-! ## Edits -/

/-- What no edit of a monster by itself changes. -/
structure SameBody (info info' : ObjectInfo) : Prop where
  objectid : info'.objectid = info.objectid
  objecttype : info'.objecttype = info.objecttype
  hp : info'.hp = info.hp
  maxhp : info'.maxhp = info.maxhp
  attack : info'.attack = info.attack
  defence : info'.defence = info.defence

/-- A hit as the trace records it. -/
def hitEvent (attacker victim : ObjectRef) (a v : ObjectInfo) : Event :=
  .applyDamage attacker victim a.attack v.defence (clampedHp v) (damageOf a.attack v.defence)

/-- The single changes that the operations are made of, each with what it broadcasts. -/
inductive Edit : World → World → Prop
  /-- A skill is recorded. -/
  | skill (w : World) (id : ObjectId) : Edit w (w.log (.processSkill id))
  /-- A hit is recorded. -/
  | damage {w : World} {attacker victim : ObjectRef} {a v : ObjectInfo}
      (ha : w.room.info? attacker = some a) (hv : w.room.info? victim = some v) :
      Edit w (w.log (hitEvent attacker victim a v))
  /-- The victim of a hit has some hp left. -/
  | hurt {w w' : World} {attacker victim : ObjectRef} {a v : ObjectInfo}
      (ha : w.room.info? attacker = some a) (hv : w.room.info? victim = some v)
      (hpos : 0 < hpAfter a v)
      (hquiet : Quiet (w.modifyInfo victim (·.setHp (hpAfter a v))) w'
        ((w.modifyInfo victim (·.setHp (hpAfter a v))).room.announce
          (.sMove (v.setHp (hpAfter a v))))) : Edit w w'
  /-- An object leaves the room. -/
  | erase {w w' : World} {ref : ObjectRef} (hreg : w.room.Registered ref)
      (hquiet : Quiet (w.erase ref) w' ((w.erase ref).room.announce (.sRemoveObject [ref.id]))) :
      Edit w w'
  /-- A monster changes its state, its target or its timer, which nobody is told. -/
  | think {w : World} {id : ObjectId} {m : Monster} {f : Monster → Monster}
      (hm : w.room.monsters[id]? = some m) (hbody : SameBody m.info (f m).info)
      (hdir : (f m).info.dir = m.info.dir)
      (hcell : (f m).info.getCellPos = m.info.getCellPos) (hroom : (f m).room = m.room) :
      Edit w (w.modifyMonster id f)
  /-- A monster turns or steps to a cell it can go to, and acts. -/
  | act {w w' : World} {id : ObjectId} {m : Monster} {f : Monster → Monster}
      (hm : w.room.monsters[id]? = some m) (hbody : SameBody m.info (f m).info)
      (hcell : (f m).info.getCellPos = m.info.getCellPos ∨
        w.room.canGo (f m).info.getCellPos = true)
      (hquiet : Quiet (w.modifyMonster id f) w'
        ((w.modifyMonster id f).room.announce (.sMove (f m).info)))
      (hdir : IsDir (f m).info.dir) (hroom : (f m).room = m.room) : Edit w w'
  /-- An object is announced as it is. -/
  | announce {w w' : World} {ref : ObjectRef} {info : ObjectInfo}
      (hinfo : w.room.info? ref = some info)
      (hquiet : Quiet w w' (w.room.announce (.sMove info))) : Edit w w'

theorem Registry.modifyMonster_body (h : Registry w) {m : Monster} {f : Monster → Monster}
    (hm : w.room.monsters[id]? = some m) (hbody : SameBody m.info (f m).info) :
    Registry (w.modifyMonster id f) := by
  refine h.modifyMonster fun m' hm' => ?_
  obtain rfl := Option.some.inj (hm.symm.trans hm')
  exact ⟨hbody.objectid, hbody.objecttype⟩

/-- A sequence of edits. -/
abbrev Edits : World → World → Prop := Relation.ReflTransGen Edit

theorem Edit.registry (he : Edit w w') (h : Registry w) : Registry w' := by
  cases he with
  | skill id => exact h.of_quiet (.log w _)
  | damage ha hv => exact h.of_quiet (.log w _)
  | hurt ha hv hpos hq =>
    refine Registry.of_quiet ?_ hq
    exact h.modifyInfo fun _ => ⟨rfl, rfl⟩
  | erase hreg hq => exact (h.erase _).of_quiet hq
  | think hm hbody _ _ => exact h.modifyMonster_body hm hbody
  | act hm hbody _ hq => exact (h.modifyMonster_body hm hbody).of_quiet hq
  | announce _ hq => exact h.of_quiet hq

theorem Edits.registry (he : Edits w w') (h : Registry w) : Registry w' := by
  induction he with
  | refl => exact h
  | tail _ he ih => exact he.registry ih

/-- What an edit may make of the info of one object. -/
inductive Change (w : World) (info : ObjectInfo) : ObjectInfo → Prop
  | same : Change w info info
  /-- The object was hit. -/
  | hurt {attacker : ObjectRef} {a : ObjectInfo} (ha : w.room.info? attacker = some a)
      (hpos : 0 < hpAfter a info) : Change w info (info.setHp (hpAfter a info))
  /-- The object is a monster that acted. -/
  | act {info' : ObjectInfo} (hbody : SameBody info info') : Change w info info'

theorem change_of_modifyMonster {id : ObjectId} {m : Monster} {f : Monster → Monster}
    {info' : ObjectInfo} (hm : w.room.monsters[id]? = some m) (hbody : SameBody m.info (f m).info)
    (hi : (w.modifyMonster id f).room.info? ref = some info') :
    ∃ info, w.room.info? ref = some info ∧ Change w info info' := by
  rw [World.info?_modifyMonster] at hi
  split at hi
  · rename_i href
    rw [hm] at hi
    obtain rfl := Option.some.inj hi
    exact ⟨_, href ▸ GameRoom.info?_of_monster hm, .act hbody⟩
  · exact ⟨info', hi, .same⟩

/-- An edit adds no object, and changes each in one of these ways. -/
theorem Edit.change (he : Edit w w') {info' : ObjectInfo} (hi : w'.room.info? ref = some info') :
    ∃ info, w.room.info? ref = some info ∧ Change w info info' := by
  cases he with
  | skill id => exact ⟨info', hi, .same⟩
  | damage => exact ⟨info', hi, .same⟩
  | hurt ha hv hpos hq =>
    rw [hq.room, World.info?_modifyInfo] at hi
    split at hi
    · rename_i href
      rw [hv] at hi
      obtain rfl := Option.some.inj hi
      exact ⟨_, href ▸ hv, .hurt ha hpos⟩
    · exact ⟨info', hi, .same⟩
  | erase _ hq =>
    rw [hq.room, World.info?_erase] at hi
    split at hi
    · cases hi
    · exact ⟨info', hi, .same⟩
  | think hm hbody _ _ => exact change_of_modifyMonster hm hbody hi
  | act hm hbody _ hq =>
    rw [hq.room] at hi
    exact change_of_modifyMonster hm hbody hi
  | announce _ hq => exact ⟨info', hq.room ▸ hi, .same⟩

/-- Edits bring no object into the room. -/
theorem Edits.registered (he : Edits w w') (h : w'.room.Registered ref) : w.room.Registered ref := by
  induction he with
  | refl => exact h
  | tail _ hlast ih =>
    obtain ⟨info', hinfo'⟩ := Option.isSome_iff_exists.1 h
    obtain ⟨info, hinfo, -⟩ := hlast.change hinfo'
    exact ih (GameRoom.registered_of_info? hinfo)

theorem Edits.mem_players (he : Edits w w') (hid : id ∈ w'.room.players) : id ∈ w.room.players :=
  GameRoom.registered_player.1 (he.registered (GameRoom.registered_player.2 hid))

theorem Edits.mem_monsters (he : Edits w w') (hid : id ∈ w'.room.monsters) : id ∈ w.room.monsters :=
  GameRoom.registered_monster.1 (he.registered (GameRoom.registered_monster.2 hid))

theorem Edit.idGenerator (he : Edit w w') : w'.idGenerator = w.idGenerator := by
  cases he with
  | skill | damage | think => rfl
  | hurt _ _ _ hq => exact hq.idGenerator
  | erase _ hq => exact hq.idGenerator
  | act _ _ _ hq => exact hq.idGenerator
  | announce _ hq => exact hq.idGenerator

theorem Edits.idGenerator (he : Edits w w') : w'.idGenerator = w.idGenerator := by
  induction he with
  | refl => rfl
  | tail _ he ih => exact he.idGenerator.trans ih

/-- An event that is no hit, or is one between two objects of the room. -/
def Event.Fair (w : World) (e : Event) : Prop :=
  (∃ s pkt, e = .send s pkt) ∨ (∃ id, e = .processSkill id) ∨
    ∃ attacker victim a v, w.room.info? attacker = some a ∧ w.room.info? victim = some v ∧
      e = hitEvent attacker victim a v

theorem Event.fair_of_mem_announce {r : GameRoom} {pkt : ServerPacket} {e : Event}
    (he : e ∈ r.announce pkt) : e.Fair w := by
  obtain ⟨s, -, rfl⟩ := List.mem_map.1 he
  exact .inl ⟨s, pkt, rfl⟩

theorem Edit.fair (he : Edit w w') {e : Event} (hmem : e ∈ w'.trace) : e ∈ w.trace ∨ e.Fair w := by
  have hquiet : ∀ {w₁ r pkt}, Quiet w₁ w' (GameRoom.announce r pkt) → w₁.trace = w.trace →
      e ∈ w.trace ∨ e.Fair w := by
    intro w₁ r pkt hq htrace
    rw [hq.trace, htrace, List.mem_append] at hmem
    exact hmem.imp_right Event.fair_of_mem_announce
  cases he with
  | skill id =>
    rw [World.trace_log, List.mem_append, List.mem_singleton] at hmem
    exact hmem.imp_right fun h => .inr (.inl ⟨id, h⟩)
  | damage ha hv =>
    rw [World.trace_log, List.mem_append, List.mem_singleton] at hmem
    exact hmem.imp_right fun h => .inr (.inr ⟨_, _, _, _, ha, hv, h⟩)
  | hurt _ _ _ hq => exact hquiet hq rfl
  | erase _ hq => exact hquiet hq rfl
  | think => exact .inl hmem
  | act _ _ _ hq => exact hquiet hq rfl
  | announce _ hq => exact hquiet hq rfl

/-! ## Leaving -/

theorem Removed.edits (h : Removed id w w') : Edits w w' := by
  cases h with
  | absent => exact .refl
  | erased hfind hq =>
    obtain ⟨rfl, hreg⟩ := GameRoom.findObject_eq_some hfind
    exact .single (.erase hreg hq)

theorem Left.edits (h : Left s w w') : Edits w w' := by
  cases h with
  | noPlayer => exact .refl
  | removed _ hrem => exact hrem.edits

theorem leaveRoom_edits (h : Registry w) (hok : leaveRoom P s w = .ok w') : Edits w w' :=
  (leaveRoom_ok h.toLinked hok).edits

/-! ## Fighting -/

/-- What `ApplyDamage` has done when it returns. -/
inductive Hit (attacker victim : ObjectRef) (w : World) : World → Prop
  | missed : Hit attacker victim w w
  | hurt {a v : ObjectInfo} {w' : World} (ha : w.room.info? attacker = some a)
      (hv : w.room.info? victim = some v) (hpos : 0 < hpAfter a v)
      (hquiet : Quiet
        ((w.log (hitEvent attacker victim a v)).modifyInfo victim (·.setHp (hpAfter a v))) w'
        ((w.modifyInfo victim (·.setHp (hpAfter a v))).room.announce
          (.sMove (v.setHp (hpAfter a v))))) : Hit attacker victim w w'
  | killed {a v : ObjectInfo} {w' : World} (ha : w.room.info? attacker = some a)
      (hv : w.room.info? victim = some v) (hzero : hpAfter a v ≤ 0)
      (hquiet : Quiet ((w.log (hitEvent attacker victim a v)).erase victim) w'
        ((w.erase victim).room.announce (.sRemoveObject [victim.id]))) : Hit attacker victim w w'

theorem Hit.edits {attacker victim : ObjectRef} (h : Hit attacker victim w w') : Edits w w' := by
  cases h with
  | missed => exact .refl
  | hurt ha hv hpos hq =>
    exact .tail (.single (.damage ha hv)) (.hurt (w := w.log _) ha hv hpos hq)
  | killed ha hv hzero hq =>
    exact .tail (.single (.damage ha hv))
      (.erase (w := w.log _) (GameRoom.registered_of_info? hv) hq)

/-- A hit changes nobody but the victim. -/
theorem Hit.info?_of_ne {attacker victim : ObjectRef} (h : Hit attacker victim w w')
    (hne : ref ≠ victim) : w'.room.info? ref = w.room.info? ref := by
  cases h with
  | missed => rfl
  | hurt _ _ _ hq => rw [hq.room, World.info?_modifyInfo, if_neg hne, World.room_log]
  | killed _ _ _ hq => rw [hq.room, World.info?_erase, if_neg hne, World.room_log]

theorem GameRoom.info?_of_object? {r : GameRoom} {o : GameObject} (h : r.object? ref = some o) :
    r.info? ref = some o.info := by rw [info?, h]; rfl

theorem applyDamage_ok {attacker victim : ObjectRef} (h : Registry w)
    (hok : applyDamage P attacker victim w = .ok w') : Hit attacker victim w w' := by
  unfold applyDamage at hok
  split at hok
  · rename_i a v ha hv
    have ha := GameRoom.info?_of_object? ha
    have hv := GameRoom.info?_of_object? hv
    split at hok
    · cases hok
      exact .missed
    · have hr : Registry ((w.log (hitEvent attacker victim a.info v.info)).modifyInfo victim
          (·.setHp (hpAfter a.info v.info))) :=
        (h.of_quiet (.log w _)).modifyInfo fun _ => ⟨rfl, rfl⟩
      simp only at hok
      split at hok
      · rename_i hzero
        -- the victim is registered under its own id, so it is what `RemoveObject` finds
        have hreg : ((w.log (hitEvent attacker victim a.info v.info)).modifyInfo victim
            (·.setHp (hpAfter a.info v.info))).room.Registered victim := by
          rw [World.room_modifyInfo, GameRoom.registered_modifyInfo]
          exact GameRoom.registered_of_info? hv
        have hfind := hr.findObject hreg
        rw [h.objectid hv] at hok
        refine .killed ha hv hzero ?_
        cases removeObject_ok hr.toLinked hok with
        | absent hnone => cases hnone.symm.trans hfind
        | erased hsome hq =>
          obtain rfl := Option.some.inj (hfind.symm.trans hsome)
          have herase : ((w.log (hitEvent attacker victim a.info v.info)).modifyInfo victim
              (·.setHp (hpAfter a.info v.info))).erase victim =
              (w.log (hitEvent attacker victim a.info v.info)).erase victim := by
            simp only [World.erase, World.modifyInfo, World.setRoom, GameRoom.erase_modifyInfo]
          rwa [herase] at hq
      · rename_i hpos
        exact .hurt ha hv (Int32.not_le.1 hpos) (broadcast_ok hr.toLinked hok)
  · cases hok
    exact .missed

/-- What the attack that a move may start has done when it is over: only a player attacks, and only
the monster that the room finds in front of it. -/
inductive Attack (ref : ObjectRef) (w : World) : World → Prop
  | none : Attack ref w w
  | missed : Attack ref w (w.log (.processSkill ref.id))
  | hit {p : ObjectInfo} {id : ObjectId} {w' : World} (hp : w.room.info? ref = some p)
      (htype : p.objecttype = objectTypePlayer)
      (hfound : w.room.getGameObjectAt p.getFrontCellPos = some (.monster id))
      (hhit : Hit ref (.monster id) (w.log (.processSkill ref.id)) w') : Attack ref w w'

theorem Attack.edits (h : Attack ref w w') : Edits w w' := by
  cases h with
  | none => exact .refl
  | missed => exact .single (.skill w _)
  | hit _ _ _ hhit => exact .head (.skill w _) hhit.edits

/-- Who attacks is a player, and is not changed by it. -/
theorem Attack.info?_self (h : Attack ref w w') (hr : Registry w) :
    w'.room.info? ref = w.room.info? ref := by
  cases h with
  | none | missed => rfl
  | @hit p id _ hp htype _ hhit =>
    refine hhit.info?_of_ne ?_
    rintro rfl
    have hne : objectTypeMonster ≠ objectTypePlayer := by decide
    exact hne ((hr.objecttype hp).symm.trans htype)

/-- What `ProcessSkill` asks for before it hits: the player is in the room, and so is the monster
that the room finds in front of it. -/
structure Attacks (w : World) (ref : ObjectRef) (id : ObjectId) (p m : GameObject) : Prop where
  player : w.room.object? ref = some p
  player_room : p.room = true
  front : w.room.getGameObjectAt p.info.getFrontCellPos = some (.monster id)
  monster : w.room.object? (.monster id) = some m
  monster_room : m.room = true

theorem Attacks.unique {id id' : ObjectId} {p p' m m' : GameObject} (h : Attacks w ref id p m)
    (h' : Attacks w ref id' p' m') : id = id' ∧ p = p' ∧ m = m' := by
  obtain rfl := Option.some.inj (h.player.symm.trans h'.player)
  obtain rfl := ObjectRef.monster.inj (Option.some.inj (h.front.symm.trans h'.front))
  exact ⟨rfl, rfl, Option.some.inj (h.monster.symm.trans h'.monster)⟩

/-- `ProcessSkill` hits the monster in front of the player, or does nothing. -/
theorem processSkill_cases (h : Registry w) (hok : processSkill P ref w = .ok w') :
    (w' = w.log (.processSkill ref.id) ∧ ∀ id p m, ¬ Attacks w ref id p m) ∨
      ∃ id p m, Attacks w ref id p m ∧
        applyDamage P ref (.monster id) (w.log (.processSkill ref.id)) = .ok w' := by
  unfold processSkill at hok
  simp only [World.room_log] at hok
  by_cases hattacks : ∃ id p m, Attacks w ref id p m
  · obtain ⟨id, p, m, ha⟩ := hattacks
    have hp := GameRoom.info?_of_object? ha.player
    have hself : w.room.findObject p.info.objectid = some ref := by
      rw [h.objectid hp]
      exact h.findObject (GameRoom.registered_of_info? hp)
    have hm : m.info.objecttype = objectTypeMonster :=
      h.objecttype (GameRoom.info?_of_object? ha.monster)
    refine .inr ⟨id, p, m, ha, ?_⟩
    simpa [ha.player, ha.player_room, ha.front, ha.monster, ha.monster_room, hm, hself] using hok
  · refine .inl ⟨?_, fun id p m ha => hattacks ⟨id, p, m, ha⟩⟩
    split at hok
    · exact (Except.ok.inj hok).symm
    · rename_i p hp
      split at hok
      · exact (Except.ok.inj hok).symm
      · rename_i hroom
        split at hok
        · exact (Except.ok.inj hok).symm
        · rename_i target hfront
          split at hok
          · exact (Except.ok.inj hok).symm
          · rename_i t ht
            split at hok
            · exact (Except.ok.inj hok).symm
            · rename_i htype
              split at hok
              · exact (Except.ok.inj hok).symm
              · rename_i hsame
                have hroom : p.room = true := eq_true_of_ne_false hroom
                have htarget := h.objecttype (GameRoom.info?_of_object? ht)
                cases target with
                | player id =>
                  have hne : objectTypeMonster ≠ objectTypePlayer := by decide
                  exact absurd ((not_not.1 htype).symm.trans htarget) hne
                | monster id =>
                  have ht_room : t.room = true := (not_not.1 hsame).trans hroom
                  exact absurd ⟨id, p, t, hp, hroom, hfront, ht, ht_room⟩ hattacks

theorem processSkill_ok (h : Registry w)
    (htype : ∀ info, w.room.info? ref = some info → info.objecttype = objectTypePlayer)
    (hok : processSkill P ref w = .ok w') : Attack ref w w' := by
  rcases processSkill_cases h hok with ⟨rfl, -⟩ | ⟨id, p, m, ha, hhit⟩
  · exact .missed
  · have hp := GameRoom.info?_of_object? ha.player
    exact .hit hp (htype _ hp) ha.front (applyDamage_ok (h.of_quiet (.log w _)) hhit)

/-! ## Moving -/

section

variable (pkt : CMove) (info : ObjectInfo)

@[simp] theorem moveInfo_objectid : (moveInfo pkt info).objectid = info.objectid := by
  simp only [moveInfo, clampHp, overwriteInfo]
  split_ifs <;> rfl

@[simp] theorem moveInfo_objecttype : (moveInfo pkt info).objecttype = info.objecttype := by
  simp only [moveInfo, clampHp, overwriteInfo]
  split_ifs <;> rfl

@[simp] theorem moveInfo_state : (moveInfo pkt info).state = pkt.info.state := by
  simp only [moveInfo, clampHp, overwriteInfo]
  split_ifs <;> rfl

@[simp] theorem moveInfo_dir : (moveInfo pkt info).dir = pkt.info.dir := by
  simp only [moveInfo, clampHp, overwriteInfo]
  split_ifs <;> rfl

@[simp] theorem moveInfo_getCellPos : (moveInfo pkt info).getCellPos = pkt.info.getCellPos := by
  simp only [moveInfo, clampHp, overwriteInfo]
  split_ifs <;> rfl

@[simp] theorem moveInfo_attack :
    (moveInfo pkt info).attack = (resolveWeaponStat pkt.info.attack).attack := by
  simp only [moveInfo, clampHp, overwriteInfo]
  split_ifs <;> rfl

@[simp] theorem moveInfo_defence :
    (moveInfo pkt info).defence = (resolveWeaponStat pkt.info.attack).defence := by
  simp only [moveInfo, clampHp, overwriteInfo]
  split_ifs <;> rfl

end

/-- What `Handle_C_Move` has done when it returns; an attack starts only with a new state. -/
inductive Moved (pkt : CMove) (w : World) : World → Prop
  | absent (hfind : w.room.findObject pkt.info.objectid = none) : Moved pkt w w
  | moved {ref : ObjectRef} {prev : ObjectInfo} {w₁ w' : World}
      (hfind : w.room.findObject pkt.info.objectid = some ref)
      (hprev : w.room.info? ref = some prev)
      (hattack : Attack ref (w.modifyInfo ref (moveInfo pkt)) w₁)
      (hcalm : prev.state = pkt.info.state → w₁ = w.modifyInfo ref (moveInfo pkt))
      (hquiet : Quiet w₁ w' (w₁.room.announce
        (.sMove ((w₁.room.info? ref).getD (moveInfo pkt prev))))) : Moved pkt w w'

theorem Registry.moveInfo (h : Registry w) : Registry (w.modifyInfo ref (moveInfo pkt)) :=
  h.modifyInfo fun info => ⟨moveInfo_objectid pkt info, moveInfo_objecttype pkt info⟩

/-- The attack of a player that has been moved. -/
theorem processSkill_moved {prev : ObjectInfo} (h : Registry w)
    (hprev : w.room.info? ref = some prev)
    (htype : (moveInfo pkt prev).objecttype = objectTypePlayer)
    (hok : processSkill P ref (w.modifyInfo ref (moveInfo pkt)) = .ok w') :
    Attack ref (w.modifyInfo ref (moveInfo pkt)) w' := by
  refine processSkill_ok h.moveInfo (fun info hi => ?_) hok
  rw [World.info?_modifyInfo, if_pos rfl, hprev] at hi
  obtain rfl := Option.some.inj hi
  exact htype

/-- A packet that names nobody is dropped. -/
theorem handleCMove_absent (hfind : w.room.findObject pkt.info.objectid = none)
    (hok : handleCMove P pkt w = .ok w') : w' = w := by
  simp only [handleCMove, hfind] at hok
  exact (Except.ok.inj hok).symm

/-- What `Handle_C_Move` does to the object it finds. -/
theorem handleCMove_found {prev : ObjectInfo}
    (hfind : w.room.findObject pkt.info.objectid = some ref) (hprev : w.room.info? ref = some prev)
    (hok : handleCMove P pkt w = .ok w') :
    ∃ w₁, (if (moveInfo pkt prev).objecttype = objectTypePlayer ∧ prev.state ≠ skill ∧
        (moveInfo pkt prev).state = skill then processSkill P ref (w.modifyInfo ref (moveInfo pkt))
      else .ok (w.modifyInfo ref (moveInfo pkt))) = .ok w₁ ∧
      broadcast P (.sMove ((w₁.room.info? ref).getD (moveInfo pkt prev))) w₁ = .ok w' := by
  unfold handleCMove at hok
  simp only [hfind, hprev] at hok
  exact bind_eq_ok.1 hok

theorem handleCMove_ok (h : Registry w) (hok : handleCMove P pkt w = .ok w') : Moved pkt w w' := by
  cases hfind : w.room.findObject pkt.info.objectid with
  | none =>
    obtain rfl := handleCMove_absent hfind hok
    exact .absent hfind
  | some ref =>
    obtain ⟨prev, hprev⟩ := Option.isSome_iff_exists.1 (GameRoom.findObject_eq_some hfind).2
    obtain ⟨w₁, hskill, hsay⟩ := handleCMove_found hfind hprev hok
    have hattack : Attack ref (w.modifyInfo ref (moveInfo pkt)) w₁ := by
      split at hskill
      · rename_i hplayer
        exact processSkill_moved h hprev hplayer.1 hskill
      · obtain rfl := Except.ok.inj hskill
        exact .none
    have hcalm : prev.state = pkt.info.state → w₁ = w.modifyInfo ref (moveInfo pkt) := by
      intro hstate
      rw [moveInfo_state, hstate, if_neg fun hnew => hnew.2.1 hnew.2.2] at hskill
      exact (Except.ok.inj hskill).symm
    exact .moved hfind hprev hattack hcalm
      (broadcast_ok (hattack.edits.registry h.moveInfo).toLinked hsay)

/-- A packet of a session that is not in the room is dropped. -/
theorem receiveCMove_cases {s : SessionId} (hok : receiveCMove P s pkt w = .ok w') :
    ((w.sessions s).gameRoom = true ∧ handleCMove P pkt w = .ok w') ∨
      (¬ (w.sessions s).gameRoom = true ∧ w' = w) := by
  unfold receiveCMove at hok
  split at hok
  · rename_i hroom
    exact .inl ⟨hroom, hok⟩
  · rename_i hroom
    exact .inr ⟨hroom, (Except.ok.inj hok).symm⟩

theorem Moved.registry (hm : Moved pkt w w') (h : Registry w) : Registry w' := by
  cases hm with
  | absent => exact h
  | moved _ _ hattack _ hq => exact (hattack.edits.registry h.moveInfo).of_quiet hq

theorem Moved.idGenerator (hm : Moved pkt w w') : w'.idGenerator = w.idGenerator := by
  cases hm with
  | absent => rfl
  | moved _ _ hattack _ hq => exact hq.idGenerator.trans hattack.edits.idGenerator

/-- A move brings no object into the room. -/
theorem Moved.registered (hm : Moved pkt w w') (h : w'.room.Registered ref) :
    w.room.Registered ref := by
  cases hm with
  | absent => exact h
  | moved _ _ hattack _ hq =>
    rw [hq.room] at h
    exact GameRoom.registered_modifyInfo.1 (hattack.edits.registered h)

/-! ## Entering -/

namespace Registry

theorem link (h : Registry w) (hs : (w.sessions s).player = none) : Registry (w.link s) where
  player_of_session {id t} ht := by
    have hp := h.player_of_session ht
    rcases eq_or_ne t s with rfl | hne
    · cases hs.symm.trans hp
    · exact (congrArg GameSession.player (World.sessions_setSession_of_ne hne)).trans hp
  objecttype hi := h.objecttype hi
  not_monster {t id} hp hm := by
    rcases eq_or_ne t s with rfl | hne
    · have hself : ((w.link t).sessions t).player = some w.idGenerator :=
        congrArg GameSession.player World.sessions_setSession_self
      obtain rfl := Option.some.inj (hself.symm.trans hp)
      exact absurd (h.lt_idGenerator (GameRoom.registered_monster.2 hm)) (lt_irrefl _)
    · exact h.not_monster
        ((congrArg GameSession.player (World.sessions_setSession_of_ne hne)).symm.trans hp) hm
  objectid hi := h.objectid hi
  disjoint hp := h.disjoint hp
  lt_idGenerator hreg := Nat.lt_succ_of_lt (h.lt_idGenerator hreg)
  player_lt {t id} hp := by
    rcases eq_or_ne t s with rfl | hne
    · have hself : ((w.link t).sessions t).player = some w.idGenerator :=
        congrArg GameSession.player World.sessions_setSession_self
      obtain rfl := Option.some.inj (hself.symm.trans hp)
      exact Nat.lt_succ_self _
    · exact Nat.lt_succ_of_lt (h.player_lt
        ((congrArg GameSession.player (World.sessions_setSession_of_ne hne)).symm.trans hp))

theorem addPlayer (h : Registry w) {p : Player} (htype : p.info.objecttype = objectTypePlayer)
    (hlink : (w.sessions p.session).player = some p.info.objectid) :
    Registry (w.setRoom (w.room.addPlayer p)) := by
  have hinfo : ∀ ref, (w.room.addPlayer p).info? ref =
      if ref = .player p.info.objectid then some p.info else w.room.info? ref :=
    fun ref => GameRoom.info?_addPlayer
  refine { player_of_session := ?_, objecttype := ?_, not_monster := fun hp => h.not_monster hp,
           objectid := ?_, disjoint := ?_, lt_idGenerator := ?_, player_lt := fun hp => h.player_lt hp }
  · intro id t ht
    rw [World.room_setRoom, GameRoom.session?_addPlayer] at ht
    split at ht
    · rename_i hid
      obtain rfl := Option.some.inj ht
      exact hid ▸ hlink
    · exact h.player_of_session ht
  · intro ref info hi
    rw [World.room_setRoom, hinfo] at hi
    split at hi
    · rename_i href
      obtain rfl := Option.some.inj hi
      rw [href]
      exact htype
    · exact h.objecttype hi
  · intro ref info hi
    rw [World.room_setRoom, hinfo] at hi
    split at hi
    · rename_i href
      obtain rfl := Option.some.inj hi
      rw [href]
      rfl
    · exact h.objectid hi
  · intro id hp hm
    have hm : id ∈ w.room.monsters := hm
    rw [World.room_setRoom, ← GameRoom.registered_player, GameRoom.Registered, hinfo] at hp
    split at hp
    · rename_i href
      obtain rfl := ObjectRef.player.inj href
      exact h.not_monster hlink hm
    · exact h.disjoint (GameRoom.registered_player.1 hp) hm
  · intro ref hreg
    rw [World.room_setRoom, GameRoom.Registered, hinfo] at hreg
    split at hreg
    · rename_i href
      rw [href]
      exact h.player_lt hlink
    · exact h.lt_idGenerator hreg

end Registry

/-- What `EnterRoom` has done when it returns: the new player was told of itself and of the others,
and then added. If a send to it failed, it may have been disconnected before that. -/
inductive Entered (s : SessionId) (w w' : World) : Prop
  | intro {mid : World}
      (hsends : QuietBut s (w.link s) mid
        [.send s (.sMyPlayer (enteringPlayer w.idGenerator s).info),
         .send s (.sAddObject w.room.infos)])
      (hadd : Quiet (mid.setRoom (mid.room.addPlayer (enteringPlayer w.idGenerator s))) w'
        ((mid.room.addPlayer (enteringPlayer w.idGenerator s)).announce
          (.sAddObject [(enteringPlayer w.idGenerator s).info]))) : Entered s w w'

theorem World.player_link (w : World) (s : SessionId) :
    ((w.link s).sessions s).player = some w.idGenerator :=
  congrArg GameSession.player World.sessions_setSession_self

theorem Registry.absent_link (h : Registry w) (s : SessionId) : Absent (w.link s) s := by
  intro id hp hmem
  obtain rfl := Option.some.inj ((w.player_link s).symm.trans hp)
  exact absurd (h.lt_idGenerator (GameRoom.registered_player.2 hmem)) (lt_irrefl _)

theorem Registry.entering (h : Registry w) (hs : (w.sessions s).player = none) {mid : World}
    (hq : Still (w.link s) mid evs) :
    Registry (mid.setRoom (mid.room.addPlayer (enteringPlayer w.idGenerator s))) :=
  ((h.link hs).of_still hq).addPlayer rfl ((hq.player s).trans (w.player_link s))

theorem enterRoom_ok (h : Registry w) (hs : (w.sessions s).player = none)
    (hok : enterRoom P s w = .ok w') : Entered s w w' := by
  unfold enterRoom at hok
  obtain ⟨w₁, hmy, hok⟩ := bind_eq_ok.1 hok
  obtain ⟨w₂, hall, hadd⟩ := bind_eq_ok.1 hok
  have hq₁ := send_absent (h.link hs).toLinked (h.absent_link s) hmy
  have hr₁ := (h.link hs).of_still hq₁.toStill
  have hq₂ := send_absent hr₁.toLinked ((h.absent_link s).of_still hq₁.toStill) hall
  have hq := hq₁.trans hq₂
  have hroom : w₁.room = w.room := hq₁.room
  rw [hroom] at hq
  exact .intro hq (broadcast_ok (h.entering hs hq.toStill).toLinked hadd)

theorem Entered.registry (he : Entered s w w') (h : Registry w)
    (hs : (w.sessions s).player = none) : Registry w' := by
  obtain ⟨hsends, hadd⟩ := he
  exact (h.entering hs hsends.toStill).of_quiet hadd

/-- The room after an entry: the new player and everybody who was there. -/
theorem Entered.room_eq (he : Entered s w w') :
    w'.room = w.room.addPlayer (enteringPlayer w.idGenerator s) := by
  obtain ⟨hsends, hadd⟩ := he
  have hroom : (w.link s).room = w.room := rfl
  rw [hadd.room, World.room_setRoom, hsends.room, hroom]

/-- What the new player and the others are sent. -/
theorem Entered.trace_eq (he : Entered s w w') : w'.trace = w.trace ++
    ([.send s (.sMyPlayer (enteringPlayer w.idGenerator s).info),
      .send s (.sAddObject w.room.infos)] ++
    w'.room.announce (.sAddObject [(enteringPlayer w.idGenerator s).info])) := by
  have hroom := he.room_eq
  obtain ⟨hsends, hadd⟩ := he
  have hmid : (w.link s).room = w.room := rfl
  rw [hadd.trace, World.trace_setRoom, hsends.trace, List.append_assoc, hroom, hsends.room, hmid]
  rfl

theorem Entered.info? (he : Entered s w w') (ref : ObjectRef) :
    w'.room.info? ref =
      if ref = .player w.idGenerator then some (enteringPlayer w.idGenerator s).info
      else w.room.info? ref := by
  rw [he.room_eq, GameRoom.info?_addPlayer]
  rfl

/-- An entry brings nobody into the room but the new player. -/
theorem Entered.registered (he : Entered s w w') (hid : ref.id < w.idGenerator)
    (h : w'.room.Registered ref) : w.room.Registered ref := by
  rw [GameRoom.Registered, he.info?, if_neg] at h
  · exact h
  · rintro rfl
    exact absurd hid (lt_irrefl _)

theorem Entered.idGenerator (he : Entered s w w') : w'.idGenerator = w.idGenerator + 1 := by
  obtain ⟨hsends, hadd⟩ := he
  exact hadd.idGenerator.trans hsends.idGenerator

theorem Entered.fair (he : Entered s w w') {e : Event} (hmem : e ∈ w'.trace) :
    e ∈ w.trace ∨ e.Fair w := by
  obtain ⟨hsends, hadd⟩ := he
  have htrace : (w.link s).trace = w.trace := rfl
  rw [hadd.trace, World.trace_setRoom, hsends.trace, htrace, List.mem_append,
    List.mem_append] at hmem
  rcases hmem with (hmem | hmem) | hmem
  · exact .inl hmem
  · simp only [List.mem_cons, List.not_mem_nil, or_false] at hmem
    rcases hmem with rfl | rfl
    · exact .inr (.inl ⟨_, _, rfl⟩)
    · exact .inr (.inl ⟨_, _, rfl⟩)
  · exact .inr (Event.fair_of_mem_announce hmem)

end Zelda.Server
