import Zelda.Server.Pacing
import Zelda.Server.Health

/-!
# Between the turns

The room pointer of every object in the room is set (`housed_of_serverRun`), so no check of it fails
there. Between two updates of the room a monster is left as it is, but for its hp
(`ServerStep.undisturbed`), and nobody's hp rises in any step of the server (`ServerStep.weakens`).
-/

namespace Zelda.Server

open Protocol Std

variable {P : Platform} {w w' w'' : World} {s : SessionId} {id : ObjectId} {ref ref' : ObjectRef}
  {m m' : Monster} {evs : List Event} {pkt : CMove} {tilemap : Tilemap}

/-! ## The room pointers -/

/-- The room pointer of everybody is set. -/
def Housed (w : World) : Prop := ∀ ref o, w.room.object? ref = some o → o.room = true

/-- The objects of `w'` are in `w`, with the same room pointer. -/
def SameHomes (w w' : World) : Prop := ∀ ref o', w'.room.object? ref = some o' →
  ∃ o, w.room.object? ref = some o ∧ o'.room = o.room

theorem SameHomes.housed (h : SameHomes w w') (hw : Housed w) : Housed w' := by
  intro ref o' ho'
  obtain ⟨o, ho, hroom⟩ := h ref o' ho'
  rw [hroom]
  exact hw ref o ho

theorem SameHomes.of_room (h : w'.room = w.room) : SameHomes w w' := by
  intro ref o' ho'
  rw [h] at ho'
  exact ⟨o', ho', rfl⟩

theorem SameHomes.trans (h : SameHomes w w') (h' : SameHomes w' w'') : SameHomes w w'' := by
  intro ref o'' ho''
  obtain ⟨o', ho', hroom'⟩ := h' ref o'' ho''
  obtain ⟨o, ho, hroom⟩ := h ref o' ho'
  exact ⟨o, ho, hroom'.trans hroom⟩

theorem GameRoom.object?_player (r : GameRoom) (id : ObjectId) :
    r.object? (.player id) = r.players[id]?.map Player.toGameObject := rfl

theorem GameRoom.object?_monster (r : GameRoom) (id : ObjectId) :
    r.object? (.monster id) = r.monsters[id]?.map Monster.toGameObject := rfl

theorem sameHomes_modifyMonster {f : Monster → Monster}
    (hf : ∀ m, w.room.monsters[id]? = some m → (f m).room = m.room) :
    SameHomes w (w.modifyMonster id f) := by
  intro ref o' ho'
  cases ref with
  | player k => exact ⟨o', ho', rfl⟩
  | monster k =>
    rw [GameRoom.object?_monster, World.room_modifyMonster,
      GameRoom.getElem?_modifyMonster] at ho'
    split at ho'
    · rename_i hk
      obtain ⟨m', hm', rfl⟩ := Option.map_eq_some_iff.1 ho'
      obtain ⟨m, hm, rfl⟩ := Option.map_eq_some_iff.1 hm'
      refine ⟨m.toGameObject, ?_, hf m hm⟩
      rw [GameRoom.object?_monster, hk, hm]
      rfl
    · exact ⟨o', ho', rfl⟩

theorem sameHomes_modifyInfo (w : World) (ref : ObjectRef) (f : ObjectInfo → ObjectInfo) :
    SameHomes w (w.modifyInfo ref f) := by
  cases ref with
  | monster id => exact sameHomes_modifyMonster fun _ _ => rfl
  | player id =>
    intro ref o' ho'
    cases ref with
    | monster k => exact ⟨o', ho', rfl⟩
    | player k =>
      simp only [GameRoom.object?_player, World.room_modifyInfo, GameRoom.modifyInfo,
        ExtTreeMap.getElem?_modify, LawfulEqCmp.compare_eq_iff_eq] at ho'
      split at ho'
      · rename_i hk
        obtain ⟨p', hp', rfl⟩ := Option.map_eq_some_iff.1 ho'
        obtain ⟨p, hp, rfl⟩ := Option.map_eq_some_iff.1 hp'
        refine ⟨p.toGameObject, ?_, rfl⟩
        rw [GameRoom.object?_player, ← hk, hp]
        rfl
      · exact ⟨o', ho', rfl⟩

theorem sameHomes_erase (w : World) (ref : ObjectRef) : SameHomes w (w.erase ref) := by
  intro ref' o' ho'
  refine ⟨o', ?_, rfl⟩
  cases ref <;> cases ref' <;>
    simp only [GameRoom.object?_player, GameRoom.object?_monster, World.room_erase, GameRoom.erase,
      ExtTreeMap.getElem?_erase] at ho' ⊢
  all_goals first
    | exact ho'
    | split at ho'
      · cases ho'
      · exact ho'

theorem Edit.sameHomes (he : Edit w w') : SameHomes w w' := by
  cases he with
  | skill | damage => exact .of_room rfl
  | hurt _ _ _ hq => exact (sameHomes_modifyInfo w _ _).trans (.of_room hq.room)
  | erase _ hq => exact (sameHomes_erase w _).trans (.of_room hq.room)
  | @think id m f hm _ _ _ hroom =>
    refine sameHomes_modifyMonster fun m' hm' => ?_
    obtain rfl := Option.some.inj (hm.symm.trans hm')
    exact hroom
  | @act w' id m f hm _ _ hq _ hroom =>
    refine SameHomes.trans (sameHomes_modifyMonster fun m' hm' => ?_) (.of_room hq.room)
    obtain rfl := Option.some.inj (hm.symm.trans hm')
    exact hroom
  | announce _ hq => exact .of_room hq.room

theorem Edits.sameHomes (he : Edits w w') : SameHomes w w' := by
  induction he with
  | refl => exact .of_room rfl
  | tail _ he ih => exact ih.trans he.sameHomes

theorem Moved.sameHomes (hm : Moved pkt w w') : SameHomes w w' := by
  cases hm with
  | absent => exact .of_room rfl
  | @moved ref _ _ _ _ _ hattack _ hq =>
    exact ((sameHomes_modifyInfo w ref _).trans hattack.edits.sameHomes).trans (.of_room hq.room)

/-- Who enters gets its room pointer. -/
theorem Housed.addPlayer (h : Housed w) (p : Player) :
    Housed (w.setRoom (w.room.addPlayer p)) := by
  intro ref o ho
  cases ref with
  | monster k => exact h (.monster k) o ho
  | player k =>
    simp only [GameRoom.object?_player, World.room_setRoom, GameRoom.addPlayer,
      ExtTreeMap.getElem?_insert] at ho
    split at ho
    · obtain rfl := Option.some.inj ho
      rfl
    · exact h (.player k) o ho

theorem Connected.housed (hc : Connected s w w') (h : Housed w) : Housed w' := by
  obtain ⟨hsend, hsends, hadd⟩ := hc
  have hmid : Housed _ := (SameHomes.of_room hsends.room).housed
    (w := World.link _ s) fun ref o ho => h ref o ?_
  · exact (SameHomes.of_room hadd.room).housed (hmid.addPlayer _)
  · have hroom : (World.link _ s).room = w.room := hsend.room
    rwa [hroom] at ho

theorem ServerStep.housed {ev : ServerEvent} (hs : ServerStep P w ev w') (hr : Registry w)
    (h : Housed w) : Housed w' := by
  rcases hs.change hr with ⟨w₁, w₂, hbefore, hedits, hafter⟩ | ⟨s, -, -, hc⟩ | ⟨s, pkt, -, rfl | hm⟩
  · have hhomes := ((SameHomes.of_room hbefore.room).trans hedits.sameHomes).trans
      (.of_room hafter.room)
    exact hhomes.housed h
  · exact hc.housed h
  · exact h
  · exact hm.sameHomes.housed h

theorem housed_init (tilemap : Tilemap) : Housed (World.init tilemap) := by
  intro ref o ho
  cases ref with
  | player k => cases ho
  | monster k =>
    have hget : (World.init tilemap).room.monsters[k]? =
        if 1 = k then some { firstMonster with room := true } else none := by
      simp only [World.init, GameRoom.addMonster, ExtTreeMap.getElem?_insert,
        LawfulEqCmp.compare_eq_iff_eq, ExtTreeMap.getElem?_empty]
      rfl
    rw [GameRoom.object?_monster, hget] at ho
    split at ho
    · obtain rfl := Option.some.inj ho
      rfl
    · cases ho

/-- **Every object in the room has its room pointer set**, in every run of the server. -/
theorem housed_of_serverRun (h : ServerReachable P tilemap w) : Registry w ∧ Housed w :=
  h.invariant (I := fun w => Registry w ∧ Housed w)
    (fun _ _ _ hI _ hs => ⟨hs.registry hI.1, hs.housed hI.1 hI.2⟩)
    ⟨registry_init tilemap, housed_init tilemap⟩

/-! ## A monster that is left alone -/

/-- If the monster is still there, it is as it was, but for its hp. -/
def Undisturbed (id : ObjectId) (w w' : World) : Prop := ∀ m', w'.room.monsters[id]? = some m' →
  ∃ m hp, w.room.monsters[id]? = some m ∧ m' = { m with info := m.info.setHp hp }

namespace Undisturbed

theorem of_monsters (h : w'.room.monsters[id]? = w.room.monsters[id]?) : Undisturbed id w w' :=
  fun m' hm' => ⟨m', m'.info.hp, h ▸ hm', rfl⟩

theorem of_room (h : w'.room = w.room) : Undisturbed id w w' := of_monsters (by rw [h])

theorem trans (h : Undisturbed id w w') (h' : Undisturbed id w' w'') : Undisturbed id w w'' := by
  intro m'' hm''
  obtain ⟨m', hp', hm', rfl⟩ := h' m'' hm''
  obtain ⟨m, hp, hm, rfl⟩ := h m' hm'
  exact ⟨m, hp', hm, rfl⟩

theorem setHp (ref : ObjectRef) (hp : Int32) :
    Undisturbed id w (w.modifyInfo ref (·.setHp hp)) := by
  cases ref with
  | player k => exact of_monsters rfl
  | monster k =>
    intro m' hm'
    rw [World.modifyInfo_monster, World.room_modifyMonster, GameRoom.getElem?_modifyMonster] at hm'
    split at hm'
    · rename_i hk
      obtain ⟨m, hm, rfl⟩ := Option.map_eq_some_iff.1 hm'
      exact ⟨m, hp, hk ▸ hm, rfl⟩
    · exact ⟨m', m'.info.hp, hm', rfl⟩

theorem modifyInfo_of_ne (hne : ref ≠ .monster id) (f : ObjectInfo → ObjectInfo) :
    Undisturbed id w (w.modifyInfo ref f) := by
  cases ref with
  | player k => exact of_monsters rfl
  | monster k =>
    refine of_monsters ?_
    rw [World.modifyInfo_monster, World.room_modifyMonster, GameRoom.getElem?_modifyMonster,
      if_neg fun h => hne (congrArg ObjectRef.monster h.symm)]

theorem erase (ref : ObjectRef) : Undisturbed id w (w.erase ref) := by
  cases ref with
  | player k => exact of_monsters rfl
  | monster k =>
    intro m' hm'
    simp only [World.room_erase, GameRoom.erase, ExtTreeMap.getElem?_erase] at hm'
    split at hm'
    · cases hm'
    · exact ⟨m', m'.info.hp, hm', rfl⟩

end Undisturbed

theorem Hit.undisturbed {attacker victim : ObjectRef} (hhit : Hit attacker victim w w') :
    Undisturbed id w w' := by
  cases hhit with
  | missed => exact .of_room rfl
  | hurt _ _ _ hq =>
    have hlog : ∀ e, Undisturbed id w (w.log e) := fun _ => .of_room rfl
    exact ((hlog _).trans (.setHp victim _)).trans (.of_room hq.room)
  | killed _ _ _ hq =>
    have hlog : ∀ e, Undisturbed id w (w.log e) := fun _ => .of_room rfl
    exact ((hlog _).trans (.erase victim)).trans (.of_room hq.room)

theorem Attack.undisturbed (ha : Attack ref w w') : Undisturbed id w w' := by
  cases ha with
  | none | missed => exact .of_room rfl
  | hit _ _ _ hhit =>
    have hlog : ∀ e, Undisturbed id w (w.log e) := fun _ => .of_room rfl
    exact (hlog _).trans hhit.undisturbed

/-- A packet that names a player leaves the monsters alone. -/
theorem Moved.undisturbed (hmoved : Moved pkt w w') (h : Registry w)
    (hown : (w.sessions s).player = some pkt.info.objectid) : Undisturbed id w w' := by
  cases hmoved with
  | absent => exact .of_room rfl
  | @moved ref _ w₁ _ hfind _ hattack _ hq =>
    obtain ⟨hid, hreg⟩ := GameRoom.findObject_eq_some hfind
    have hne : ref ≠ .monster id := by
      rintro rfl
      exact h.not_monster (hid ▸ hown) (GameRoom.registered_monster.1 hreg)
    have hset : Undisturbed id w (w.modifyInfo ref (moveInfo pkt)) := .modifyInfo_of_ne hne _
    exact (hset.trans hattack.undisturbed).trans (.of_room hq.room)

theorem Disconnected.undisturbed (hd : Disconnected s w w') : Undisturbed id w w' := by
  have hremoved : ∀ {k : ObjectId} {w w' : World}, Removed k w w' → Undisturbed id w w' := by
    intro k w w' hremoved
    cases hremoved with
    | absent => exact .of_room rfl
    | @erased ref w' _ hq => exact (Undisturbed.erase ref).trans (.of_room hq.room)
  have hflag : Undisturbed id w (w.disconnected s) := .of_room rfl
  cases hd with
  | already => exact .of_room rfl
  | left _ hleft =>
    cases hleft with
    | noPlayer => exact hflag
    | removed _ hrem => exact hflag.trans (hremoved hrem)

theorem Sent.undisturbed (hs : Sent s w w') : Undisturbed id w w' := by
  cases hs with
  | quiet hq => exact .of_room hq.room
  | disconnected hq hdis hclear =>
    exact ((Undisturbed.of_room hq.room).trans hdis.undisturbed).trans (.of_room hclear.room)

theorem Connected.undisturbed (hc : Connected s w w') : Undisturbed id w w' := by
  obtain ⟨hsend, hsends, hadd⟩ := hc
  have hlinked : ∀ w : World, Undisturbed id w (w.link s) := fun _ => .of_room rfl
  have hadded : ∀ (w : World) p, Undisturbed id w (w.setRoom (w.room.addPlayer p)) :=
    fun _ _ => .of_monsters rfl
  have hsent : Undisturbed id w _ := .of_room hsend.room
  have htold := (hsent.trans (hlinked _)).trans (.of_room hsends.room)
  exact (htold.trans (hadded _ _)).trans (.of_room hadd.room)

/-- **Only updates move a monster**, as long as packets name the player of their own session. -/
theorem ServerStep.undisturbed {ev : ServerEvent} (hs : ServerStep P w ev w') (h : Registry w)
    (hown : NamesOwnPlayer w ev) (htick : ev.tick? id = none) : Undisturbed id w w' := by
  cases hs with
  | processConnect hnew hok =>
    exact (processConnect_ok h (congrArg GameSession.player hnew) hok).undisturbed
  | disconnect hok => exact (disconnect_ok h.toLinked hok).undisturbed
  | receiveCMove hok =>
    rcases receiveCMove_ok h hok with rfl | hmoved
    · exact .of_room rfl
    · exact hmoved.undisturbed h hown
  | processSend hok => exact (processSend_ok h hok).undisturbed
  | update hok => cases htick

/-! ## Nobody's hp rises -/

theorem Weakens.of_still (hq : Still w w' evs) : Weakens w w' :=
  ⟨hq.idGenerator.ge, fun hi _ => ⟨_, hq.room ▸ hi, Int32.le_refl _⟩⟩

theorem ServerStep.weakens {ev : ServerEvent} (hs : ServerStep P w ev w') (hr : Registry w)
    (h : Sound w) : Weakens w w' := by
  have hnil : ∀ {w : World}, ∀ e ∈ ([] : List Event), e.Fair w := fun _ he => by cases he
  rcases hs.change hr with ⟨w₁, w₂, hbefore, hedits, hafter⟩ | ⟨s, -, -, hsend, henter⟩ |
    ⟨s, pkt, -, rfl | hm⟩
  · have hweak := (hedits.sound (h.of_still hbefore hnil)).2
    exact ((Weakens.of_still hbefore).trans hweak).trans (.of_still hafter)
  · have hflag := Weakens.of_still (still_setConnected w s true)
    have hmid : Sound _ := (h.setSession s _).of_still hsend.toStill fun e he => by
      obtain rfl := List.mem_singleton.1 he
      exact .inl ⟨s, _, rfl⟩
    exact (hflag.trans (.of_still hsend.toStill)).trans (henter.sound hmid).2
  · exact .refl w'
  · exact (hm.sound h).2

end Zelda.Server
