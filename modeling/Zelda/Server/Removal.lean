import Zelda.Server.Cells
import Zelda.Server.Strikes

/-!
# Who is told of a removal

`RemoveObject` takes the object out of its map and then broadcasts, so the announcement goes to the
players who are left. A session whose player is removed because it disconnects need not be told; a
session whose player is killed is still connected, and is not told either, neither of this removal
nor of any later one.

* `Edits.announced`: edits announce every removal to every session that still attends in the end.
* `Edits.not_told`: no session is ever sent the removal of its own player.
* `update_not_announced`: so an update that kills a player leaves its session untold.
* `removals_announced_of_run`: as long as no player of a connected session has been killed, a step
  announces its removals to everybody exactly when it kills no such player.
-/

namespace Zelda.Server

open Protocol Std

variable {P : Platform} {w w' w'' : World} {s t : SessionId} {id pid : ObjectId} {ref : ObjectRef}
  {evs : List Event} {tilemap : Tilemap}

/-! ## Announcements -/

/-- Whatever left the room between `w` and `w'`, every session that is still connected and had
entered the room was sent the message that removes it. -/
def Announced (w w' : World) : Prop :=
  ∃ evs, w'.trace = w.trace ++ evs ∧ ∀ ref, w.room.Registered ref → ¬ w'.room.Registered ref →
    ∀ s, (w'.sessions s).connected = true → (w.sessions s).gameRoom = true →
      Event.send s (.sRemoveObject [ref.id]) ∈ evs

/-- A step after which everything is still there has nothing to announce. -/
theorem Announced.of_registered (htrace : w'.trace = w.trace ++ evs)
    (hreg : ∀ ref, w.room.Registered ref → w'.room.Registered ref) : Announced w w' :=
  ⟨evs, htrace, fun ref h hnot => absurd (hreg ref h) hnot⟩

theorem Announced.refl (w : World) : Announced w w :=
  .of_registered (List.append_nil _).symm fun _ h => h

theorem Announced.of_quiet (hq : Quiet w w' evs) : Announced w w' :=
  .of_registered hq.trace fun _ h => hq.room ▸ h

theorem Announced.trans (h : Announced w w') (h' : Announced w' w'')
    (hc : ∀ s, (w''.sessions s).connected = true → (w'.sessions s).connected = true)
    (hg : ∀ s, (w.sessions s).gameRoom = true → (w'.sessions s).gameRoom = true) :
    Announced w w'' := by
  obtain ⟨evs, htrace, htold⟩ := h
  obtain ⟨evs', htrace', htold'⟩ := h'
  refine ⟨evs ++ evs', by rw [htrace', htrace, List.append_assoc], ?_⟩
  intro ref hreg hnot s hs hroom
  rw [List.mem_append]
  by_cases hmid : w'.room.Registered ref
  · exact .inr (htold' ref hmid hnot s hs (hg s hroom))
  · exact .inl (htold ref hreg hmid s (hc s hs) hroom)

/-! ## Sessions during edits -/

/-- Between `w` and `w'` no session was opened, closed or linked. -/
structure SameSessions (w w' : World) : Prop where
  connected : ∀ s, (w'.sessions s).connected = (w.sessions s).connected
  player : ∀ s, (w'.sessions s).player = (w.sessions s).player
  gameRoom : ∀ s, (w'.sessions s).gameRoom = (w.sessions s).gameRoom

theorem SameSessions.refl (w : World) : SameSessions w w := ⟨fun _ => rfl, fun _ => rfl, fun _ => rfl⟩

theorem SameSessions.trans (h : SameSessions w w') (h' : SameSessions w' w'') :
    SameSessions w w'' where
  connected s := (h'.connected s).trans (h.connected s)
  player s := (h'.player s).trans (h.player s)
  gameRoom s := (h'.gameRoom s).trans (h.gameRoom s)

theorem Quiet.sameSessions (h : Quiet w w' evs) : SameSessions w w' :=
  ⟨h.connected, h.player, h.gameRoom⟩

theorem Edit.sameSessions (he : Edit w w') : SameSessions w w' := by
  cases he with
  | skill | damage | think => exact ⟨fun _ => rfl, fun _ => rfl, fun _ => rfl⟩
  | hurt _ _ _ hq => exact ⟨hq.connected, hq.player, hq.gameRoom⟩
  | erase _ hq => exact ⟨hq.connected, hq.player, hq.gameRoom⟩
  | act _ _ _ hq => exact ⟨hq.connected, hq.player, hq.gameRoom⟩
  | announce _ hq => exact hq.sameSessions

theorem Edits.sameSessions (he : Edits w w') : SameSessions w w' := by
  induction he with
  | refl => exact .refl w
  | tail _ he ih => exact ih.trans he.sameSessions

/-- Edits bring no player into the room. -/
theorem Edit.session? (he : Edit w w') (hs : w'.room.session? id = some s) :
    w.room.session? id = some s := by
  cases he with
  | skill | damage | think => exact hs
  | hurt _ _ _ hq => rwa [hq.room, World.session?_modifyInfo] at hs
  | erase _ hq =>
    rw [hq.room, World.session?_erase] at hs
    split at hs
    · cases hs
    · exact hs
  | act _ _ _ hq =>
    rw [hq.room] at hs
    exact hs
  | announce _ hq => rwa [hq.room] at hs

theorem GameRoom.registered_modifyMonster {r : GameRoom} {f : Monster → Monster} :
    (r.modifyMonster id f).Registered ref ↔ r.Registered ref := by
  rw [Registered, info?_modifyMonster, Registered]
  split
  · rename_i href
    rw [href, info?_monster, Option.isSome_map, Option.isSome_map]
  · rfl

/-! ## Attendance -/

/-- Every connected session that has entered the room has its player there. -/
def Attending (w : World) : Prop :=
  ∀ s, (w.sessions s).connected = true → (w.sessions s).gameRoom = true → s ∈ w.room.audience

theorem Attending.of_sessions (h : Attending w) (hsame : SameSessions w w')
    (hkept : ∀ id s, (w.sessions s).connected = true → w.room.session? id = some s →
      w'.room.session? id = some s) : Attending w' := by
  intro s hc hg
  rw [hsame.connected] at hc
  rw [hsame.gameRoom] at hg
  obtain ⟨id, hid⟩ := GameRoom.mem_audience.1 (h s hc hg)
  exact GameRoom.mem_audience.2 ⟨id, hkept id s hc hid⟩

theorem Attending.of_quiet (h : Attending w) (hq : Quiet w w' evs) : Attending w' :=
  h.of_sessions hq.sameSessions fun _ _ _ hid => hq.room ▸ hid

/-- Who attends after an edit attended before it. -/
theorem Edit.attending (he : Edit w w') (h : Attending w') : Attending w := by
  intro s hc hg
  rw [← he.sameSessions.connected] at hc
  rw [← he.sameSessions.gameRoom] at hg
  obtain ⟨id, hid⟩ := GameRoom.mem_audience.1 (h s hc hg)
  exact GameRoom.mem_audience.2 ⟨id, he.session? hid⟩

theorem Edit.announced (he : Edit w w') (h : Attending w') : Announced w w' := by
  cases he with
  | skill | damage => exact .of_registered rfl fun _ h => h
  | hurt _ _ _ hq =>
    refine .of_registered hq.trace fun ref hreg => ?_
    rw [hq.room, World.room_modifyInfo]
    exact GameRoom.registered_modifyInfo.2 hreg
  | @erase _ ref hreg hq =>
    refine ⟨_, hq.trace, fun ref' hreg' hnot s hc hg => ?_⟩
    rw [hq.room, World.room_erase, GameRoom.registered_erase] at hnot
    have href : ref' = ref := by
      by_contra hne
      exact hnot ⟨hne, hreg'⟩
    -- who attends in the end is in the audience of the announcement
    have hmem := h s hc ((hq.gameRoom s).trans hg)
    rw [hq.room] at hmem
    rw [href]
    exact List.mem_map_of_mem hmem
  | think =>
    exact .of_registered (List.append_nil _).symm fun ref hreg =>
      GameRoom.registered_modifyMonster.2 hreg
  | act _ _ _ hq =>
    refine .of_registered hq.trace fun ref hreg => ?_
    rw [hq.room, World.room_modifyMonster]
    exact GameRoom.registered_modifyMonster.2 hreg
  | announce _ hq => exact .of_quiet hq

/-- **Edits announce every removal to everybody who attends in the end.** -/
theorem Edits.announced (he : Edits w w') (h : Attending w') : Announced w w' := by
  induction he with
  | refl => exact .refl w
  | tail hrest hlast ih =>
    refine (ih (hlast.attending h)).trans (hlast.announced h) ?_ ?_
    · intro s hc
      rwa [hlast.sameSessions.connected] at hc
    · intro s hg
      rwa [Edits.sameSessions hrest |>.gameRoom]

/-! ## What a session is not told -/

theorem Edit.not_told (he : Edit w w') (hr : Registry w) (hp : (w.sessions s).player = some id) :
    ∃ evs, w'.trace = w.trace ++ evs ∧ Event.send s (.sRemoveObject [id]) ∉ evs := by
  have hmove : ∀ {r : GameRoom} {info : ObjectInfo},
      Event.send s (.sRemoveObject [id]) ∉ r.announce (.sMove info) := by
    intro r info hmem
    obtain ⟨_, -, heq⟩ := List.mem_map.1 hmem
    cases heq
  cases he with
  | skill | damage => exact ⟨_, rfl, by simp [hitEvent]⟩
  | think => exact ⟨[], (List.append_nil _).symm, List.not_mem_nil⟩
  | hurt _ _ _ hq => exact ⟨_, hq.trace, hmove⟩
  | act _ _ _ hq => exact ⟨_, hq.trace, hmove⟩
  | announce _ hq => exact ⟨_, hq.trace, hmove⟩
  | @erase _ ref hreg hq =>
    refine ⟨_, hq.trace, fun hmem => ?_⟩
    obtain ⟨_, haudience, heq⟩ := List.mem_map.1 hmem
    cases heq
    -- the session is in the audience with its own player, which is the one that was erased
    obtain ⟨id', hid'⟩ := GameRoom.mem_audience.1 haudience
    rw [World.session?_erase] at hid'
    split at hid'
    · cases hid'
    · rename_i hne
      have heq := Option.some.inj ((hr.player_of_session hid').symm.trans hp)
      cases ref with
      | player id => exact hne (congrArg ObjectRef.player heq.symm)
      | monster id => exact hr.not_monster hp (GameRoom.registered_monster.1 hreg)

/-- **No session is sent the removal of its own player.** -/
theorem Edits.not_told (he : Edits w w') (hr : Registry w)
    (hp : (w.sessions s).player = some id) :
    ∃ evs, w'.trace = w.trace ++ evs ∧ Event.send s (.sRemoveObject [id]) ∉ evs := by
  induction he with
  | refl => exact ⟨[], (List.append_nil _).symm, List.not_mem_nil⟩
  | tail hrest hlast ih =>
    obtain ⟨evs, htrace, hnot⟩ := ih
    have hp' := ((Edits.sameSessions hrest).player s).trans hp
    obtain ⟨evs', htrace', hnot'⟩ := hlast.not_told (Edits.registry hrest hr) hp'
    refine ⟨evs ++ evs', by rw [htrace', htrace, List.append_assoc], fun hmem => ?_⟩
    exact (List.mem_append.1 hmem).elim hnot hnot'

/-! ## The roster -/

/-- What every run keeps as long as nobody who is connected is killed: who is connected and has
entered has its player in the room, players belong to one session each, and there is no monster but
the first one. -/
structure Roster (w : World) : Prop extends Registry w where
  attending : Attending w
  entered : ∀ {s id}, (w.sessions s).player = some id → (w.sessions s).gameRoom = true
  injective : ∀ {s t id}, (w.sessions s).player = some id → (w.sessions t).player = some id → s = t
  monster_one : ∀ id, id ∈ w.room.monsters → id = 1

theorem Roster.of_sessions (h : Roster w) (hr : Registry w')
    (hp : ∀ s, (w'.sessions s).player = (w.sessions s).player)
    (hg : ∀ s, (w'.sessions s).gameRoom = (w.sessions s).gameRoom)
    (hmonsters : ∀ id, id ∈ w'.room.monsters → id ∈ w.room.monsters) (ha : Attending w') :
    Roster w' where
  toRegistry := hr
  attending := ha
  entered hs := by
    rw [hp] at hs
    rw [hg]
    exact h.entered hs
  injective hs ht := by
    rw [hp] at hs ht
    exact h.injective hs ht
  monster_one id hid := h.monster_one id (hmonsters id hid)

theorem Roster.of_quiet (h : Roster w) (hq : Quiet w w' evs) : Roster w' :=
  h.of_sessions (h.toRegistry.of_quiet hq) hq.player hq.gameRoom (fun _ hid => hq.room ▸ hid)
    (h.attending.of_quiet hq)

theorem Roster.of_edits (h : Roster w) (he : Edits w w') (ha : Attending w') : Roster w' :=
  h.of_sessions (he.registry h.toRegistry) he.sameSessions.player he.sameSessions.gameRoom
    (fun _ hid => he.mem_monsters hid) ha

theorem roster_init (tilemap : Tilemap) : Roster (World.init tilemap) where
  toRegistry := registry_init tilemap
  attending _ hc := by cases hc
  entered hp := by cases hp
  injective hp := by cases hp
  monster_one id hid := by
    obtain ⟨info, hinfo⟩ := Option.isSome_iff_exists.1 (GameRoom.registered_monster.2 hid)
    exact ObjectRef.monster.inj (info?_init hinfo).1

/-! ## The steps of the server -/

theorem Connected.trace (hc : Connected s w w') : ∃ evs, w'.trace = w.trace ++ evs := by
  obtain ⟨hsend, hsends, hadd⟩ := hc
  exact ⟨_, by
    rw [hadd.trace, World.trace_setRoom, hsends.trace]
    exact (congrArg (· ++ _ ++ _) hsend.trace).trans
      ((List.append_assoc _ _ _).trans (List.append_assoc _ _ _))⟩

theorem Connected.room (hc : Connected s w w') :
    w'.room = w.room.addPlayer (enteringPlayer w.idGenerator s) := by
  obtain ⟨hsend, henter⟩ := hc
  rw [henter.room_eq, hsend.room, hsend.idGenerator]
  rfl

/-- A connection changes no other session. -/
theorem Connected.of_ne (hc : Connected s w w') (hne : t ≠ s) :
    (w'.sessions t).connected = (w.sessions t).connected ∧
      (w'.sessions t).player = (w.sessions t).player ∧
      (w'.sessions t).gameRoom = (w.sessions t).gameRoom := by
  obtain ⟨hsend, hsends, hadd⟩ := hc
  rename_i mid₁ mid₂
  have hlink : (mid₁.link s).sessions t = mid₁.sessions t := World.sessions_setSession_of_ne hne
  have hset : (w.setSession s { w.sessions s with connected := true }).sessions t = w.sessions t :=
    World.sessions_setSession_of_ne hne
  refine ⟨?_, ?_, ?_⟩
  · rw [hadd.connected, World.sessions_setRoom, hsends.connected t hne, hlink,
      hsend.connected t hne, hset]
  · rw [hadd.player, World.sessions_setRoom, hsends.player, hlink, hsend.player, hset]
  · rw [hadd.gameRoom, World.sessions_setRoom, hsends.gameRoom, hlink, hsend.gameRoom, hset]

theorem Connected.self (hc : Connected s w w') :
    (w'.sessions s).player = some w.idGenerator ∧ (w'.sessions s).gameRoom = true := by
  obtain ⟨hsend, hsends, hadd⟩ := hc
  rename_i mid₁ mid₂
  have hid : mid₁.idGenerator = w.idGenerator := hsend.idGenerator
  have hlink : (mid₁.link s).sessions s =
      { mid₁.sessions s with gameRoom := true, player := some mid₁.idGenerator } :=
    World.sessions_setSession_self
  constructor
  · rw [hadd.player, World.sessions_setRoom, hsends.player, hlink, hid]
  · rw [hadd.gameRoom, World.sessions_setRoom, hsends.gameRoom, hlink]

theorem Connected.roster (hc : Connected s w w') (h : Roster w)
    (hs : (w.sessions s).player = none) : Roster w' := by
  have hregistry : Registry w' := hc.registry h.toRegistry hs
  have hsession : ∀ id, w'.room.session? id =
      if id = w.idGenerator then some s else w.room.session? id := by
    intro id
    rw [hc.room, GameRoom.session?_addPlayer]
    rfl
  have hold : ∀ {t id}, t ≠ s → (w'.sessions t).player = some id →
      (w.sessions t).player = some id := fun hne hp => (hc.of_ne hne).2.1.symm.trans hp
  have hfresh : ∀ {t id}, t ≠ s → (w'.sessions t).player = some id →
      (w'.sessions s).player ≠ some id := by
    intro t id hne ht hself
    have hlt := h.player_lt (hold hne ht)
    obtain rfl := Option.some.inj (hc.self.1.symm.trans hself)
    exact absurd hlt (lt_irrefl _)
  refine { toRegistry := hregistry, attending := ?_, entered := ?_, injective := ?_,
           monster_one := ?_ }
  · intro t hct hgt
    rw [GameRoom.mem_audience]
    rcases eq_or_ne t s with rfl | hne
    · exact ⟨w.idGenerator, by rw [hsession, if_pos rfl]⟩
    · obtain ⟨hconnected, -, hgame⟩ := hc.of_ne hne
      obtain ⟨id, hid⟩ := GameRoom.mem_audience.1 (h.attending t (hconnected ▸ hct) (hgame ▸ hgt))
      refine ⟨id, ?_⟩
      have hlt := h.player_lt (h.player_of_session hid)
      rw [hsession, if_neg hlt.ne]
      exact hid
  · intro t id ht
    rcases eq_or_ne t s with rfl | hne
    · exact hc.self.2
    · rw [(hc.of_ne hne).2.2]
      exact h.entered (hold hne ht)
  · intro t u id ht hu
    by_cases hts : t = s <;> by_cases hus : u = s
    · rw [hts, hus]
    · exact absurd (hts ▸ ht) (hfresh hus hu)
    · exact absurd (hus ▸ hu) (hfresh hts ht)
    · exact h.injective (hold hts ht) (hold hus hu)
  · intro id hid
    rw [hc.room] at hid
    exact h.monster_one id hid

theorem Connected.announced (hc : Connected s w w') : Announced w w' := by
  obtain ⟨evs, htrace⟩ := hc.trace
  refine .of_registered htrace fun ref hreg => ?_
  rw [hc.room, GameRoom.Registered, GameRoom.info?_addPlayer]
  split
  · rfl
  · exact hreg

theorem World.connected_disconnected (w : World) (s t : SessionId) :
    ((w.disconnected s).sessions t).connected = if t = s then false else (w.sessions t).connected := by
  split
  · rename_i hts
    rw [hts, disconnected, sessions_setSession_self]
  · rename_i hne
    rw [disconnected, sessions_setSession_of_ne hne]

theorem World.gameRoom_disconnected (w : World) (s t : SessionId) :
    ((w.disconnected s).sessions t).gameRoom = (w.sessions t).gameRoom := by
  rcases eq_or_ne t s with rfl | hne
  · rw [disconnected, sessions_setSession_self]
  · rw [disconnected, sessions_setSession_of_ne hne]

/-- A disconnection takes away nobody but the player of its own session. -/
theorem Left.attending (hl : Left s (w.disconnected s) w') (h : Roster w) : Attending w' := by
  have hsame := hl.edits.sameSessions
  intro t hc hg
  rw [hsame.connected, World.connected_disconnected] at hc
  rw [hsame.gameRoom, World.gameRoom_disconnected] at hg
  split at hc
  · cases hc
  · rename_i hts
    obtain ⟨id, hid⟩ := GameRoom.mem_audience.1 (h.attending t hc hg)
    refine GameRoom.mem_audience.2 ⟨id, ?_⟩
    cases hl with
    | noPlayer => exact hid
    | removed hplayer hremoved =>
      cases hremoved with
      | absent => exact hid
      | erased hfind hq =>
        rw [World.player_disconnected] at hplayer
        rw [hq.room, World.session?_erase, if_neg]
        · exact hid
        · rintro rfl
          obtain ⟨rfl, -⟩ := GameRoom.findObject_eq_some hfind
          exact hts (h.injective (h.player_of_session hid) hplayer)

theorem Disconnected.roster (hd : Disconnected s w w') (h : Roster w) : Roster w' := by
  cases hd with
  | already => exact h
  | left hc hleft =>
    have hsame := hleft.edits.sameSessions
    refine h.of_sessions ((Disconnected.left hc hleft).ran.registry h.toRegistry) ?_ ?_ ?_
      (hleft.attending h)
    · exact fun t => (hsame.player t).trans (World.player_disconnected w s t)
    · exact fun t => (hsame.gameRoom t).trans (World.gameRoom_disconnected w s t)
    · exact fun _ hid => hleft.edits.mem_monsters hid

theorem Disconnected.announced (hd : Disconnected s w w') (h : Roster w) : Announced w w' := by
  cases hd with
  | already => exact .refl w
  | left _ hleft =>
    obtain ⟨evs, htrace, htold⟩ := hleft.edits.announced (hleft.attending h)
    refine ⟨evs, htrace, fun ref hreg hnot t hc hg => htold ref hreg hnot t hc ?_⟩
    rw [World.gameRoom_disconnected]
    exact hg

/-- No disconnection connects anybody. -/
theorem Disconnected.connected (hd : Disconnected s w w') (hc : (w'.sessions t).connected = true) :
    (w.sessions t).connected = true := by
  cases hd with
  | already => exact hc
  | left _ hleft =>
    rw [hleft.edits.sameSessions.connected, World.connected_disconnected] at hc
    split at hc
    · cases hc
    · exact hc

theorem Sent.roster (hs : Sent s w w') (h : Roster w) : Roster w' := by
  cases hs with
  | quiet hq => exact h.of_quiet hq
  | disconnected hq hdis hclear => exact (hdis.roster (h.of_quiet hq)).of_quiet hclear

theorem Sent.announced (hs : Sent s w w') (h : Roster w) : Announced w w' := by
  cases hs with
  | quiet hq => exact .of_quiet hq
  | disconnected hq hdis hclear =>
    have hleft := (hdis.announced (h.of_quiet hq)).trans (.of_quiet hclear)
      (fun t hc => hclear.connected t ▸ hc) (fun t hg => ?_)
    · refine (Announced.of_quiet hq).trans hleft (fun t hc => ?_) fun t hg => hq.gameRoom t ▸ hg
      exact hdis.connected (hclear.connected t ▸ hc)
    · cases hdis with
      | already => exact hg
      | left _ hleft =>
        rw [hleft.edits.sameSessions.gameRoom, World.gameRoom_disconnected]
        exact hg

/-- An attack takes no player away. -/
theorem Attack.session? (ha : Attack ref w w') : w'.room.session? id = w.room.session? id := by
  cases ha with
  | none | missed => rfl
  | hit _ _ _ hhit =>
    rcases hhit.session? with hsame | ⟨hvictim, -⟩
    · exact hsame
    · cases hvictim

theorem Moved.roster {pkt : CMove} (hm : Moved pkt w w') (h : Roster w) : Roster w' := by
  cases hm with
  | absent => exact h
  | @moved ref _ w₁ _ _ _ hattack _ hq =>
    have hsame := hattack.edits.sameSessions
    refine Roster.of_quiet (w := w₁) ?_ hq
    refine h.of_sessions (hattack.edits.registry h.moveInfo) hsame.player hsame.gameRoom ?_ ?_
    · intro id hid
      have hid := hattack.edits.mem_monsters hid
      rw [← GameRoom.registered_monster] at hid ⊢
      exact GameRoom.registered_modifyInfo.1 hid
    · refine h.attending.of_sessions ⟨hsame.connected, hsame.player, hsame.gameRoom⟩ ?_
      intro id t _ hid
      rw [hattack.session?, World.session?_modifyInfo]
      exact hid

theorem Moved.announced {pkt : CMove} (hm : Moved pkt w w') (h : Roster w) : Announced w w' := by
  have ha : Attending w' := (hm.roster h).attending
  cases hm with
  | absent => exact .refl w
  | @moved ref _ w₁ _ _ _ hattack _ hq =>
    have hsame := hattack.edits.sameSessions
    have hmove : Announced w (w.modifyInfo ref (moveInfo pkt)) :=
      .of_registered (List.append_nil _).symm fun _ hreg => GameRoom.registered_modifyInfo.2 hreg
    have ha₁ : Attending w₁ := by
      intro t hc hg
      rw [← hq.connected] at hc
      rw [← hq.gameRoom] at hg
      have hmem := ha t hc hg
      rwa [hq.room] at hmem
    refine (hmove.trans (hattack.edits.announced ha₁) ?_ fun _ hg => hg).trans (.of_quiet hq) ?_ ?_
    · exact fun t hc => hsame.connected t ▸ hc
    · exact fun t hc => hq.connected t ▸ hc
    · exact fun t hg => (hsame.gameRoom t).trans hg

/-! ## Killed players -/

/-- The update is about to kill the player of a session that is connected. -/
def KillsConnected (w : World) : ServerEvent → Prop
  | .update clock => ∃ id pid m p, Lethal w (clock id) id pid m p ∧
      (w.sessions p.session).connected = true
  | _ => False

theorem update_attending {fuel : ℕ} {clock : ObjectId → UInt64} (h : Roster w)
    (hok : update P fuel clock w = .ok w') (hno : ¬ KillsConnected w (.update clock)) :
    Attending w' := by
  have he : Edits w w' := update_edits h.toRegistry hok
  refine h.attending.of_sessions he.sameSessions fun pid s hc hs => ?_
  rw [(update_takesAway h.toRegistry h.monster_one hok).kept]
  · exact hs
  · rintro ⟨id, m, p, hl⟩
    rw [GameRoom.session?, hl.player] at hs
    obtain rfl := Option.some.inj hs
    exact hno ⟨id, pid, m, p, hl, hc⟩

/-- The session of a killed player is not told. -/
theorem update_not_announced {fuel : ℕ} {clock : ObjectId → UInt64} (h : Roster w)
    (hok : update P fuel clock w = .ok w') (hkills : KillsConnected w (.update clock)) :
    ¬ Announced w w' := by
  obtain ⟨id, pid, m, p, hl, hc⟩ := hkills
  have he : Edits w w' := update_edits h.toRegistry hok
  have hs : w.room.session? pid = some p.session := by
    rw [GameRoom.session?, hl.player]
    rfl
  have hplayer : (w.sessions p.session).player = some pid := h.player_of_session hs
  have hgone : w'.room.session? pid = none :=
    (update_takesAway h.toRegistry h.monster_one hok).killed ⟨id, m, p, hl⟩
  rintro ⟨evs, htrace, htold⟩
  obtain ⟨evs', htrace', hnot⟩ := he.not_told h.toRegistry hplayer
  obtain rfl := List.append_cancel_left (htrace.symm.trans htrace')
  refine hnot (htold (.player pid) ?_ ?_ p.session ?_ (h.entered hplayer))
  · exact GameRoom.registered_player.2 (GameRoom.mem_players_of_session? hs)
  · intro hreg
    obtain ⟨_, -, hsome⟩ := GameRoom.exists_session? (GameRoom.registered_player.1 hreg)
    cases hgone.symm.trans hsome
  · rw [he.sameSessions.connected]
    exact hc

/-- A step of the server that kills nobody who is connected keeps the roster. -/
theorem ServerStep.roster {ev : ServerEvent} (hs : ServerStep P w ev w') (h : Roster w)
    (hno : ¬ KillsConnected w ev) : Roster w' := by
  cases hs with
  | processConnect hnew hok =>
    have hp : (w.sessions _).player = none := congrArg GameSession.player hnew
    exact (processConnect_ok h.toRegistry hp hok).roster h hp
  | disconnect hok => exact (disconnect_ok h.toLinked hok).roster h
  | receiveCMove hok =>
    rcases receiveCMove_ok h.toRegistry hok with rfl | hm
    · exact h
    · exact hm.roster h
  | processSend hok => exact (processSend_ok h.toRegistry hok).roster h
  | update hok => exact h.of_edits (update_edits h.toRegistry hok) (update_attending h hok hno)

theorem ServerStep.announced_iff {ev : ServerEvent} (hs : ServerStep P w ev w') (h : Roster w) :
    Announced w w' ↔ ¬ KillsConnected w ev := by
  cases hs with
  | processConnect hnew hok =>
    have hp : (w.sessions _).player = none := congrArg GameSession.player hnew
    exact iff_of_true (processConnect_ok h.toRegistry hp hok).announced not_false
  | disconnect hok => exact iff_of_true ((disconnect_ok h.toLinked hok).announced h) not_false
  | receiveCMove hok =>
    refine iff_of_true ?_ not_false
    rcases receiveCMove_ok h.toRegistry hok with rfl | hm
    · exact .refl _
    · exact hm.announced h
  | processSend hok => exact iff_of_true ((processSend_ok h.toRegistry hok).announced h) not_false
  | update hok =>
    constructor
    · exact fun ha hkills => update_not_announced h hok hkills ha
    · intro hno
      exact (update_edits h.toRegistry hok).announced (update_attending h hok hno)

/-- **In every run in which no player of a connected session was killed, a step announces its
removals to everybody who is connected and has entered exactly when it kills no such player.** -/
theorem removals_announced_of_run
    (h : Reaches (ServerStep P) (fun w ev => ¬ KillsConnected w ev) (World.init tilemap) w) :
    Roster w ∧ ∀ ev w', ServerStep P w ev w' → (Announced w w' ↔ ¬ KillsConnected w ev) := by
  have hroster : Roster w :=
    h.invariant (fun _ _ _ hr hC hs => hs.roster hr hC) (roster_init tilemap)
  exact ⟨hroster, fun ev w' hs => hs.announced_iff hroster⟩

/-! ## A player that is killed, and one that leaves -/

/-- The first player next to the first monster, with one hp. -/
def stepNextToMonster : CMove :=
  ⟨{ (enteringPlayer 2 0).info with posx := 8, posy := 7, maxhp := 1 }⟩

/-- The server after session 0 has connected, on a map of walkable tiles. -/
def afterFirst : World :=
  Result.world (processConnect (.always .accepted) 0 (World.init openMap))

/-- The server after session 0 has stepped next to the monster. -/
def afterStep : World :=
  Result.world (receiveCMove (.always .accepted) 0 stepNextToMonster afterFirst)

/-- The server after an update at the given time. -/
def afterUpdate (now : UInt64) (w : World) : World :=
  Result.world (update (.always .accepted) 0 (fun _ => now) w)

/-- The server after the monster has raised its weapon. -/
def afterAim : World := afterUpdate 0 afterStep

/-- The server after the monster has struck. -/
def afterStrike : World := afterUpdate 1000 afterAim

theorem serverStep_afterFirst :
    ServerStep (.always .accepted) (World.init openMap) (.processConnect 0) afterFirst :=
  .processConnect rfl rfl

theorem serverStep_afterStep :
    ServerStep (.always .accepted) afterFirst (.receiveCMove 0 stepNextToMonster) afterStep :=
  .receiveCMove rfl

theorem serverStep_afterAim :
    ServerStep (.always .accepted) afterStep (.update fun _ => 0) afterAim :=
  @ServerStep.update _ _ _ _ 0 rfl

theorem serverStep_afterStrike :
    ServerStep (.always .accepted) afterAim (.update fun _ => 1000) afterStrike :=
  @ServerStep.update _ _ _ _ 0 rfl

/-- The monster that is about to strike. -/
def aimingMonster : Monster where
  info := { firstMonster.info with state := skill, dir := dirUp }
  room := true
  waitUntil := 1000
  target := some 2

/-- Its target. -/
def strickenPlayer : Player where
  info := moveInfo stepNextToMonster (enteringPlayer 2 0).info
  room := true
  session := 0

theorem killsConnected_afterAim : KillsConnected afterAim (.update fun _ => 1000) := by
  refine ⟨1, 2, aimingMonster, strickenPlayer, ?_, rfl⟩
  exact ⟨rfl, rfl, rfl, by decide, rfl, rfl, rfl, by decide, by decide⟩

/-- The monster kills the first player, and the session of that player is not told. -/
theorem not_announced_afterStrike :
    ServerReachable (.always .accepted) openMap afterAim ∧
      ServerStep (.always .accepted) afterAim (.update fun _ => 1000) afterStrike ∧
      ¬ Announced afterAim afterStrike := by
  have hrun : Reaches (ServerStep (.always .accepted)) (fun w ev => ¬ KillsConnected w ev)
      (World.init openMap) afterStep :=
    .tail (e := .receiveCMove 0 stepNextToMonster)
      (.single (e := .processConnect 0) not_false serverStep_afterFirst) not_false
      serverStep_afterStep
  refine ⟨.tail (hrun.mono fun _ _ _ => trivial) trivial serverStep_afterAim,
    serverStep_afterStrike, ?_⟩
  have hstep : Roster afterStep :=
    hrun.invariant (fun _ _ _ hr hC hs => hs.roster hr hC) (roster_init openMap)
  -- nobody is killed before, since the monster is still idle
  have hidle : ¬ KillsConnected afterStep (.update fun _ => 0) := by
    rintro ⟨id, pid, m, p, hl, -⟩
    obtain rfl := hstep.monster_one id (by
      rw [ExtTreeMap.mem_iff_isSome_getElem?, hl.monster]
      rfl)
    have hm : afterStep.room.monsters[1]? = some { firstMonster with room := true } := rfl
    obtain rfl := Option.some.inj (hm.symm.trans hl.monster)
    exact absurd hl.state (by decide)
  have haim : Roster afterAim := serverStep_afterAim.roster hstep hidle
  rw [serverStep_afterStrike.announced_iff haim, not_not]
  exact killsConnected_afterAim

/-- The server after session 1 has connected too. -/
def afterSecond : World := Result.world (processConnect (.always .accepted) 1 afterFirst)

/-- The server after session 0 has disconnected again. -/
def afterLeave : World := Result.world (disconnect (.always .accepted) 0 afterSecond)

theorem announced_afterLeave : Announced afterSecond afterLeave := by
  have hsecond : ServerStep (.always .accepted) afterFirst (.processConnect 1) afterSecond :=
    .processConnect rfl rfl
  have hleave : ServerStep (.always .accepted) afterSecond (.disconnect 0) afterLeave :=
    .disconnect rfl
  have hrun : Reaches (ServerStep (.always .accepted)) (fun w ev => ¬ KillsConnected w ev)
      (World.init openMap) afterSecond :=
    .tail (e := .processConnect 1)
      (.single (e := .processConnect 0) not_false serverStep_afterFirst) not_false hsecond
  exact ((removals_announced_of_run hrun).2 _ _ hleave).2 not_false

end Zelda.Server
