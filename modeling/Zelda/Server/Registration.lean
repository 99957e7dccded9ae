import Zelda.Server.Runs

/-!
# Who is registered

`Registry` says under which id and in which map an object is registered. Here the `room` pointers
are added to it: `AddObject` sets the pointer, and only an object that leaves the room loses it
(`InRoom`). Ids are handed out in order, so an id that was taken out of the room is not registered
again (`findObject_eq_none_of_run`).

Main lemma: `registration_of_run`.
-/

namespace Zelda.Server

open Protocol Std

variable {P : Platform} {w w' w'' : World} {s : SessionId} {id : ObjectId} {ref ref' : ObjectRef}
  {pkt : CMove} {evs : List Event} {tilemap : Tilemap}

/-! ## The pointers to the room -/

namespace GameRoom

variable {r : GameRoom}

/-- The `room` pointer of the object behind a reference. An object that is not registered any more
has been destroyed. -/
def room? (r : GameRoom) (ref : ObjectRef) : Option Bool := (r.object? ref).map (·.room)

theorem room?_player : r.room? (.player id) = r.players[id]?.map (·.room) := by
  simp [room?, object?, Function.comp_def]

theorem room?_monster : r.room? (.monster id) = r.monsters[id]?.map (·.room) := by
  simp [room?, object?, Function.comp_def]

theorem isSome_room? : (r.room? ref).isSome ↔ r.Registered ref := by
  rw [room?, Option.isSome_map, Registered, info?, Option.isSome_map]

theorem room?_modifyInfo {f : ObjectInfo → ObjectInfo} :
    (r.modifyInfo ref f).room? ref' = r.room? ref' := by
  cases ref <;> cases ref' <;>
    simp only [modifyInfo, room?_player, room?_monster, ExtTreeMap.getElem?_modify]
  all_goals
    split
    · simp_all [Function.comp_def]
    · rfl

theorem room?_erase : (r.erase ref).room? ref' = if ref' = ref then none else r.room? ref' := by
  cases ref <;> cases ref' <;>
    simp only [erase, room?_player, room?_monster, ExtTreeMap.getElem?_erase,
      LawfulEqCmp.compare_eq_iff_eq, ObjectRef.player.injEq, ObjectRef.monster.injEq, reduceCtorEq,
      if_false]
  all_goals
    split
    · simp_all
    · simp_all [eq_comm]

theorem room?_modifyMonster {m : Monster} {f : Monster → Monster} (hm : r.monsters[id]? = some m)
    (hroom : (f m).room = m.room) : (r.modifyMonster id f).room? ref = r.room? ref := by
  cases ref with
  | player id' => rfl
  | monster id' =>
    rw [room?_monster, getElem?_modifyMonster, room?_monster]
    split
    · rename_i hid
      rw [hid, hm, Option.map_some, Option.map_some, Option.map_some, hroom]
    · rfl

theorem room?_addPlayer {p : Player} :
    (r.addPlayer p).room? ref = if ref = .player p.info.objectid then some true else r.room? ref := by
  cases ref with
  | player id' =>
    simp only [room?_player, addPlayer, ExtTreeMap.getElem?_insert, LawfulEqCmp.compare_eq_iff_eq,
      ObjectRef.player.injEq]
    split
    · simp_all
    · simp_all [eq_comm]
  | monster id' =>
    rw [room?_monster, room?_monster, if_neg (by simp)]
    rfl

end GameRoom

/-- Every registered object has its `room` pointer set. -/
def InRoom (w : World) : Prop := ∀ ref, w.room.room? ref ≠ some false

theorem InRoom.of_room (h : InRoom w) (hroom : w'.room = w.room) : InRoom w' := by
  rw [InRoom, hroom]
  exact h

theorem InRoom.modifyInfo (h : InRoom w) (ref : ObjectRef) (f : ObjectInfo → ObjectInfo) :
    InRoom (w.modifyInfo ref f) := by
  intro ref'
  rw [World.room_modifyInfo, GameRoom.room?_modifyInfo]
  exact h ref'

theorem InRoom.modifyMonster (h : InRoom w) {m : Monster} {f : Monster → Monster}
    (hm : w.room.monsters[id]? = some m) (hroom : (f m).room = m.room) :
    InRoom (w.modifyMonster id f) := by
  intro ref
  rw [World.room_modifyMonster, GameRoom.room?_modifyMonster hm hroom]
  exact h ref

theorem InRoom.erase (h : InRoom w) (ref : ObjectRef) : InRoom (w.erase ref) := by
  intro ref'
  rw [World.room_erase, GameRoom.room?_erase]
  split
  · simp
  · exact h ref'

/-- Exactly the registered objects have it set. -/
theorem InRoom.room?_eq_some_true_iff (h : InRoom w) :
    w.room.room? ref = some true ↔ w.room.Registered ref := by
  rw [← GameRoom.isSome_room?]
  constructor
  · intro hr
    rw [hr]
    rfl
  · intro hsome
    obtain ⟨room, hr⟩ := Option.isSome_iff_exists.1 hsome
    cases room with
    | true => exact hr
    | false => exact absurd hr (h ref)

theorem Edit.inRoom (he : Edit w w') (h : InRoom w) : InRoom w' := by
  cases he with
  | skill | damage => exact h
  | hurt _ _ _ hq => exact (h.modifyInfo _ _).of_room hq.room
  | erase _ hq => exact (h.erase _).of_room hq.room
  | think hm _ _ _ hroom => exact h.modifyMonster hm hroom
  | act hm _ _ hq _ hroom => exact (h.modifyMonster hm hroom).of_room hq.room
  | announce _ hq => exact h.of_room hq.room

theorem Edits.inRoom (he : Edits w w') (h : InRoom w) : InRoom w' := by
  induction he with
  | refl => exact h
  | tail _ he ih => exact he.inRoom ih

theorem Moved.inRoom (hm : Moved pkt w w') (h : InRoom w) : InRoom w' := by
  cases hm with
  | absent => exact h
  | moved _ _ hattack _ hq =>
    exact (hattack.edits.inRoom (h.modifyInfo _ (moveInfo pkt))).of_room hq.room

theorem Entered.inRoom (he : Entered s w w') (h : InRoom w) : InRoom w' := by
  intro ref
  rw [he.room_eq, GameRoom.room?_addPlayer]
  split
  · simp
  · exact h ref

theorem inRoom_init (tilemap : Tilemap) : InRoom (World.init tilemap) := by
  intro ref hr
  have hreg : (World.init tilemap).room.Registered ref := by
    rw [← GameRoom.isSome_room?, hr]
    rfl
  obtain ⟨info, hi⟩ := Option.isSome_iff_exists.1 hreg
  obtain ⟨rfl, -⟩ := info?_init hi
  cases hr

/-! ## Every run of the room -/

theorem RoomStep.inRoom {ev : RoomEvent} (hs : RoomStep P w ev w') (hr : Registry w)
    (h : InRoom w) : InRoom w' := by
  rcases hs.change hr with he | ⟨_, hm⟩ | ⟨_, -, he⟩
  · exact he.inRoom h
  · exact hm.inRoom h
  · exact he.inRoom h

theorem RoomStep.idGenerator_le {ev : RoomEvent} (hs : RoomStep P w ev w') (hr : Registry w) :
    w.idGenerator ≤ w'.idGenerator := by
  rcases hs.change hr with he | ⟨_, hm⟩ | ⟨_, -, he⟩
  · exact he.idGenerator.ge
  · exact hm.idGenerator.ge
  · rw [he.idGenerator]
    exact Nat.le_succ _

/-- What a step of the room registers has a new id. -/
theorem RoomStep.registered {ev : RoomEvent} (hs : RoomStep P w ev w') (hr : Registry w)
    (hid : ref.id < w.idGenerator) (hreg : w'.room.Registered ref) : w.room.Registered ref := by
  rcases hs.change hr with he | ⟨_, hm⟩ | ⟨_, -, he⟩
  · exact he.registered hreg
  · exact hm.registered hreg
  · exact he.registered hid hreg

theorem inRoom_of_roomReachable (h : RoomReachable P tilemap w) : InRoom w := by
  have hall : Registry w ∧ InRoom w := by
    refine h.invariant (I := fun w => Registry w ∧ InRoom w) ?_
      ⟨registry_init tilemap, inRoom_init tilemap⟩
    rintro w₁ ev w₂ ⟨hr, hin⟩ - hs
    exact ⟨hs.registry hr, hs.inRoom hr hin⟩
  exact hall.2

/-- The run of a room from one state to another. -/
abbrev RoomRun (P : Platform) : World → World → Prop := Reaches (RoomStep P) (fun _ _ => True)

theorem idGenerator_le_of_run (h : RoomRun P w w') (hr : Registry w) :
    w.idGenerator ≤ w'.idGenerator := by
  have hall : Registry w' ∧ w.idGenerator ≤ w'.idGenerator := by
    refine h.invariant (I := fun w' => Registry w' ∧ w.idGenerator ≤ w'.idGenerator) ?_
      ⟨hr, le_rfl⟩
    rintro w₁ ev w₂ ⟨hr₁, hle⟩ - hs
    exact ⟨hs.registry hr₁, hle.trans (hs.idGenerator_le hr₁)⟩
  exact hall.2

/-- An id that was handed out and is not registered stays so. -/
theorem findObject_eq_none_of_run (h : RoomRun P w w') (hr : Registry w)
    (hid : id < w.idGenerator) (hnone : w.room.findObject id = none) :
    w'.room.findObject id = none := by
  have hall : Registry w' ∧ id < w'.idGenerator ∧ w'.room.findObject id = none := by
    refine h.invariant
      (I := fun w => Registry w ∧ id < w.idGenerator ∧ w.room.findObject id = none) ?_
      ⟨hr, hid, hnone⟩
    rintro w₁ ev w₂ ⟨hr₁, hid₁, hnone₁⟩ - hs
    refine ⟨hs.registry hr₁, hid₁.trans_le (hs.idGenerator_le hr₁), ?_⟩
    rw [GameRoom.findObject_eq_none_iff] at hnone₁ ⊢
    rintro ref rfl hreg
    exact hnone₁ ref rfl (hs.registered hr₁ hid₁ hreg)
  exact hall.2.2

theorem Registry.lt_of_findObject (h : Registry w) (hid : w.room.findObject id ≠ none) :
    id < w.idGenerator := by
  obtain ⟨ref, hfind⟩ := Option.ne_none_iff_exists'.1 hid
  obtain ⟨rfl, hreg⟩ := GameRoom.findObject_eq_some hfind
  exact h.lt_idGenerator hreg

/-- **The registry is consistent in every run of the room**: every entry of a map has its own id as
its key and the type of the map, no id is a key of both maps, the pointer to the room is set of
exactly the objects that are registered, and an id that was registered and is not any more is not
registered again. -/
theorem registration_of_run (P : Platform) (tilemap : Tilemap) (w : World)
    (h : RoomReachable P tilemap w) :
    (∀ (id : ObjectId) (p : Player), w.room.players[id]? = some p →
      p.info.objectid = id ∧ p.info.objecttype = objectTypePlayer) ∧
    (∀ (id : ObjectId) (m : Monster), w.room.monsters[id]? = some m →
      m.info.objectid = id ∧ m.info.objecttype = objectTypeMonster) ∧
    (∀ id : ObjectId, ¬ (id ∈ w.room.players ∧ id ∈ w.room.monsters)) ∧
    (∀ ref, w.room.room? ref = some true ↔ w.room.Registered ref) ∧
    ∀ w' w'' id, RoomRun P w w' → RoomRun P w' w'' → w.room.findObject id ≠ none →
      w'.room.findObject id = none → w''.room.findObject id = none := by
  have hr : Registry w := registry_of_roomRun h (registry_init tilemap)
  refine ⟨?_, ?_, fun id hid => hr.disjoint hid.1 hid.2,
    fun ref => (inRoom_of_roomReachable h).room?_eq_some_true_iff, ?_⟩
  · intro id p hp
    have hi : w.room.info? (.player id) = some p.info := GameRoom.info?_of_player hp
    exact ⟨hr.objectid hi, hr.objecttype hi⟩
  · intro id m hm
    have hi : w.room.info? (.monster id) = some m.info := GameRoom.info?_of_monster hm
    exact ⟨hr.objectid hi, hr.objecttype hi⟩
  · intro w' w'' id hrun hrun' hid hnone
    have hlt := (hr.lt_of_findObject hid).trans_le (idGenerator_le_of_run hrun hr)
    exact findObject_eq_none_of_run hrun' (registry_of_roomRun hrun hr) hlt hnone

/-- The monster that was struck down is not found again, although a session enters after that; the
player who is still there has its pointer. -/
theorem registration_of_run_won :
    (RoomEvent.act won (.enterRoom 2)).room.findObject 1 = none ∧
      won.room.room? (.player 3) = some true := by
  have hwon : RoomReachable (.always .accepted) {} won := roomRun_assaulted.trans roomRun_won
  have hentered : RoomRun (.always .accepted) won (RoomEvent.act won (.enterRoom 2)) :=
    .single trivial (roomStep_act (by decide +kernel))
  have hreg : won.room.Registered (.player 3) := by
    rw [GameRoom.registered_player]
    decide +kernel
  obtain ⟨-, -, -, -, hgone⟩ := registration_of_run _ _ _ roomRun_assaulted
  obtain ⟨-, -, -, hpointer, -⟩ := registration_of_run _ _ _ hwon
  exact ⟨hgone won _ 1 roomRun_won hentered (by decide +kernel) (by decide +kernel),
    (hpointer (.player 3)).2 hreg⟩

end Zelda.Server
