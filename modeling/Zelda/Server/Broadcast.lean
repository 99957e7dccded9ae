import Zelda.Server.World

/-!
# Sending, broadcasting and leaving

What a send does depends on one thing: whether its `WSASend` is issued now and fails with a code
that disconnects (`Drops`). If not, it leaves the room and everybody's links as they are (`Quiet`);
if so, `Disconnect` runs inside it.

In a room whose players and sessions are linked to each other (`Linked`) this settles what the
operations built on it do.

* `broadcast_ok`: a broadcast that ends has handed the message to every player and changed nothing
  else.
* `broadcast_eq_ok_iff`: it ends exactly when it loses nobody; otherwise the loop goes on from an
  erased entry.
* `removeObject_ok`, `leaveRoom_ok`, `disconnect_ok`: what the operations that end have done.
* `broadcast_ne_outOfFuel`: the bound on nested calls of `disconnect` is never reached.
-/

namespace Zelda.Server

open Protocol Std

variable {P : Platform} {w w' w'' : World} {s t : SessionId} {id : ObjectId} {pkt : ServerPacket}

/-! ## Steps that only talk -/

/-- From `w` to `w'` the room is as before and every session has the player it had; the events `evs`
happened. Sessions may have been disconnected, and queues and counters of sends have changed. -/
structure Still (w w' : World) (evs : List Event) : Prop where
  room : w'.room = w.room
  idGenerator : w'.idGenerator = w.idGenerator
  trace : w'.trace = w.trace ++ evs
  player : ∀ s, (w'.sessions s).player = (w.sessions s).player
  gameRoom : ∀ s, (w'.sessions s).gameRoom = (w.sessions s).gameRoom

/-- From `w` to `w'` nothing happened but the events `evs`. -/
structure Quiet (w w' : World) (evs : List Event) : Prop extends Still w w' evs where
  connected : ∀ s, (w'.sessions s).connected = (w.sessions s).connected

/-- Nothing happened but the events `evs`, except that `s` may have been disconnected. -/
structure QuietBut (s : SessionId) (w w' : World) (evs : List Event) : Prop
    extends Still w w' evs where
  connected : ∀ t, t ≠ s → (w'.sessions t).connected = (w.sessions t).connected

theorem Still.trans {evs evs' : List Event} (h : Still w w' evs) (h' : Still w' w'' evs') :
    Still w w'' (evs ++ evs') where
  room := h'.room.trans h.room
  idGenerator := h'.idGenerator.trans h.idGenerator
  trace := by rw [h'.trace, h.trace, List.append_assoc]
  player s := (h'.player s).trans (h.player s)
  gameRoom s := (h'.gameRoom s).trans (h.gameRoom s)

theorem QuietBut.trans {evs evs' : List Event} (h : QuietBut s w w' evs)
    (h' : QuietBut s w' w'' evs') : QuietBut s w w'' (evs ++ evs') where
  toStill := h.toStill.trans h'.toStill
  connected t ht := (h'.connected t ht).trans (h.connected t ht)

namespace Quiet

variable {evs evs' : List Event}

theorem refl (w : World) : Quiet w w [] :=
  ⟨⟨rfl, rfl, (List.append_nil _).symm, fun _ => rfl, fun _ => rfl⟩, fun _ => rfl⟩

theorem trans (h : Quiet w w' evs) (h' : Quiet w' w'' evs') : Quiet w w'' (evs ++ evs') where
  toStill := h.toStill.trans h'.toStill
  connected s := (h'.connected s).trans (h.connected s)

theorem but (h : Quiet w w' evs) (s : SessionId) : QuietBut s w w' evs where
  toStill := h.toStill
  connected t _ := h.connected t

theorem log (w : World) (e : Event) : Quiet w (w.log e) [e] :=
  ⟨⟨rfl, rfl, rfl, fun _ => rfl, fun _ => rfl⟩, fun _ => rfl⟩

/-- A session whose queues change. -/
theorem setSession (g : GameSession) (hc : g.connected = (w.sessions s).connected)
    (hp : g.player = (w.sessions s).player) (hr : g.gameRoom = (w.sessions s).gameRoom) :
    Quiet w (w.setSession s g) [] := by
  refine ⟨⟨rfl, rfl, (List.append_nil _).symm, fun t => ?_, fun t => ?_⟩, fun t => ?_⟩ <;>
  · rcases eq_or_ne t s with rfl | h
    · rw [World.sessions_setSession_self]
      assumption
    · rw [World.sessions_setSession_of_ne h]

theorem push (w : World) (s : SessionId) (pkt : ServerPacket) :
    Quiet w ((w.setSession s ((w.sessions s).push pkt)).log (.send s pkt)) [.send s pkt] :=
  (setSession ((w.sessions s).push pkt) rfl rfl rfl).trans (log _ _)

theorem issue (w : World) (s : SessionId) :
    Quiet w (w.setSession s (w.sessions s).issue) [] := setSession _ rfl rfl rfl

theorem clear (w : World) (s : SessionId) :
    Quiet w (w.setSession s (w.sessions s).clear) [] := setSession _ rfl rfl rfl

end Quiet

/-! ## One send -/

/-- The next send to the session issues a `WSASend` that fails with `WSAECONNRESET` or
`WSAECONNABORTED`. -/
def Drops (P : Platform) (w : World) (s : SessionId) : Prop :=
  (w.sessions s).connected = true ∧ (w.sessions s).sendRegistered = false ∧
    (P.wsaSend s (w.sessions s).wsaSends).resets = true

instance : Decidable (Drops P w s) := inferInstanceAs (Decidable (_ ∧ _ ∧ _))

theorem Drops.congr (h : w'.sessions s = w.sessions s) : Drops P w' s ↔ Drops P w s := by
  rw [Drops, Drops, h]

section

variable {D : SessionId → World → Result}

theorem registerSend_of_not_resets
    (h : (w.sessions s).connected = true → (P.wsaSend s (w.sessions s).wsaSends).resets = false) :
    ∃ w', Reentrant.registerSend P D s w = .ok w' ∧ Quiet w w' [] ∧
      ∀ t, t ≠ s → w'.sessions t = w.sessions t := by
  unfold Reentrant.registerSend
  by_cases hc : (w.sessions s).connected = false
  · simp only [hc, if_true]
    exact ⟨w, rfl, Quiet.refl w, fun _ _ => rfl⟩
  · simp only [if_neg hc]
    cases hP : P.wsaSend s (w.sessions s).wsaSends with
    | accepted => exact ⟨_, rfl, .issue w s, fun t ht => World.sessions_setSession_of_ne ht⟩
    | failed errorCode =>
      have hres := hP ▸ h (by simpa using hc)
      simp only [Reentrant.handleError, hres, Bool.false_eq_true, if_false]
      refine ⟨_, rfl, (Quiet.issue w s).trans (.clear _ s), ?_⟩
      intro t ht
      rw [World.sessions_setSession_of_ne ht, World.sessions_setSession_of_ne ht]

/-- A `WSASend` that fails with a code that disconnects: `Disconnect` runs, and then the send event
is cleared. -/
theorem registerSend_of_resets (hc : (w.sessions s).connected = true)
    (hres : (P.wsaSend s (w.sessions s).wsaSends).resets = true) :
    ∃ w₁, Quiet w w₁ [] ∧ (∀ t, t ≠ s → w₁.sessions t = w.sessions t) ∧
      Reentrant.registerSend P D s w =
        (do let w₂ ← D s w₁; .ok (w₂.setSession s (w₂.sessions s).clear)) := by
  refine ⟨w.setSession s (w.sessions s).issue, .issue w s,
    fun t ht => World.sessions_setSession_of_ne ht, ?_⟩
  rw [Reentrant.registerSend]
  simp only [hc, Bool.true_eq_false, if_false]
  cases hP : P.wsaSend s (w.sessions s).wsaSends with
  | accepted => simp [hP, SocketResult.resets] at hres
  | failed errorCode =>
    rw [hP] at hres
    simp only [Reentrant.handleError, hres, if_true]

/-- A send that does not drop its session only talks. -/
theorem send_of_not_drops (h : ¬ Drops P w s) (pkt : ServerPacket) :
    ∃ w', Reentrant.send P D s pkt w = .ok w' ∧ Quiet w w' [.send s pkt] ∧
      ∀ t, t ≠ s → w'.sessions t = w.sessions t := by
  set w₁ := (w.setSession s ((w.sessions s).push pkt)).log (.send s pkt) with hw₁
  have hq : Quiet w w₁ [.send s pkt] := .push w s pkt
  have hother : ∀ t, t ≠ s → w₁.sessions t = w.sessions t :=
    fun t ht => World.sessions_setSession_of_ne ht
  by_cases hreg : (w.sessions s).sendRegistered = true
  · exact ⟨w₁, by simp only [Reentrant.send, hreg, if_true, hw₁], hq, hother⟩
  · have hsend : Reentrant.send P D s pkt w =
        Reentrant.registerSend P D s w₁ := by
      simp only [Reentrant.send, hreg, Bool.false_eq_true, if_false, hw₁]
    have hself : w₁.sessions s = (w.sessions s).push pkt := World.sessions_setSession_self
    obtain ⟨w₂, hw₂, hq₂, hother₂⟩ := registerSend_of_not_resets (P := P) (w := w₁) (s := s)
      (D := D) (by
        rw [hself]
        intro hc
        by_contra hres
        exact h ⟨hc, eq_false_of_ne_true hreg, eq_true_of_ne_false hres⟩)
    exact ⟨w₂, hsend.trans hw₂, hq.trans hq₂, fun t ht => (hother₂ t ht).trans (hother t ht)⟩

/-- A send that drops its session. -/
theorem send_of_drops (h : Drops P w s) (pkt : ServerPacket) :
    ∃ w₁, Quiet w w₁ [.send s pkt] ∧ (∀ t, t ≠ s → w₁.sessions t = w.sessions t) ∧
      Reentrant.send P D s pkt w =
        (do let w₂ ← D s w₁; .ok (w₂.setSession s (w₂.sessions s).clear)) := by
  obtain ⟨hc, hreg, hres⟩ := h
  set w₁ := (w.setSession s ((w.sessions s).push pkt)).log (.send s pkt) with hw₁
  have hself : w₁.sessions s = (w.sessions s).push pkt := World.sessions_setSession_self
  obtain ⟨w₂, hq, hother, hregister⟩ := registerSend_of_resets (P := P) (D := D) (w := w₁) (s := s)
    (by rw [hself]; exact hc) (by rw [hself]; exact hres)
  refine ⟨w₂, (Quiet.push w s pkt).trans hq, ?_, ?_⟩
  · intro t ht
    rw [hother t ht]
    exact World.sessions_setSession_of_ne ht
  · rw [← hregister]
    simp only [Reentrant.send, hreg, Bool.false_eq_true, if_false, hw₁]

/-! ## Rooms whose players are linked to their sessions -/

/-- The type of the objects in the map a reference names. -/
def ObjectRef.objecttype : ObjectRef → Int32
  | .player _ => objectTypePlayer
  | .monster _ => objectTypeMonster

/-- What `EnterRoom` and `AddObject` establish: a player and its session point to each other, every
object is in the map of its type, and the player of a session is never a monster. -/
structure Linked (w : World) : Prop where
  player_of_session : ∀ {id s}, w.room.session? id = some s → (w.sessions s).player = some id
  objecttype : ∀ {ref info}, w.room.info? ref = some info → info.objecttype = ref.objecttype
  not_monster : ∀ {s id}, (w.sessions s).player = some id → id ∉ w.room.monsters

theorem Linked.of_still {evs : List Event} (h : Linked w) (hq : Still w w' evs) : Linked w' where
  player_of_session hs := by rw [hq.player]; exact h.player_of_session (hq.room ▸ hs)
  objecttype hi := h.objecttype (hq.room ▸ hi)
  not_monster hp := by rw [hq.room]; exact h.not_monster (hq.player _ ▸ hp)

theorem Linked.of_quiet {evs : List Event} (h : Linked w) (hq : Quiet w w' evs) : Linked w' :=
  h.of_still hq.toStill

theorem Linked.erase (h : Linked w) (ref : ObjectRef) : Linked (w.erase ref) where
  player_of_session {id s} hs := by
    rw [World.session?_erase] at hs
    split at hs
    · cases hs
    · exact h.player_of_session hs
  objecttype {ref' info} hi := by
    rw [World.info?_erase] at hi
    split at hi
    · cases hi
    · exact h.objecttype hi
  not_monster {s id} hp := by
    have hnot : ¬ w.room.Registered (.monster id) :=
      fun hreg => h.not_monster hp (GameRoom.registered_monster.1 hreg)
    rw [← GameRoom.registered_monster, World.room_erase, GameRoom.registered_erase]
    exact fun hreg => hnot hreg.2

theorem World.player_disconnected (w : World) (s t : SessionId) :
    ((w.disconnected s).sessions t).player = (w.sessions t).player := by
  rcases eq_or_ne t s with rfl | hne
  · rw [disconnected, sessions_setSession_self]
  · rw [disconnected, sessions_setSession_of_ne hne]

theorem Linked.disconnected (h : Linked w) (s : SessionId) : Linked (w.disconnected s) where
  player_of_session ht := by rw [World.player_disconnected]; exact h.player_of_session ht
  objecttype hi := h.objecttype hi
  not_monster hp := h.not_monster (World.player_disconnected w s _ ▸ hp)

/-- In a linked room, what `RemoveObject` finds it takes out of the map it found it in. -/
theorem removeObject_eq (h : Linked w) (id : ObjectId) :
    Reentrant.removeObject P D id w =
      match w.room.findObject id with
      | none => .ok w
      | some ref => Reentrant.broadcast P D (.sRemoveObject [id]) (w.erase ref) := by
  unfold Reentrant.removeObject
  cases hf : w.room.findObject id with
  | none => rfl
  | some ref =>
    obtain ⟨rfl, hreg⟩ := GameRoom.findObject_eq_some hf
    obtain ⟨info, hinfo⟩ := Option.isSome_iff_exists.1 hreg
    have htype := h.objecttype hinfo
    have hne : objectTypeMonster ≠ objectTypePlayer := by decide
    cases ref <;> simp only [hinfo, htype, ObjectRef.objecttype, ObjectRef.id, if_true, if_neg hne]

/-! ## Broadcasts -/

/-- The sessions of the players, in the order of the players' ids. -/
def GameRoom.audience (r : GameRoom) : List SessionId := r.players.keys.filterMap r.session?

/-- A broadcast of `pkt` as the trace records it. -/
def GameRoom.announce (r : GameRoom) (pkt : ServerPacket) : List Event :=
  r.audience.map (.send · pkt)

theorem GameRoom.mem_audience {r : GameRoom} :
    s ∈ r.audience ↔ ∃ id, r.session? id = some s := by
  rw [audience, List.mem_filterMap]
  constructor
  · rintro ⟨id, -, h⟩
    exact ⟨id, h⟩
  · rintro ⟨id, h⟩
    exact ⟨id, ExtTreeMap.mem_keys.2 (mem_players_of_session? h), h⟩

/-- Whatever happens to a session, its player is taken out of the room, or the run ends at an
erased entry. This is what `Disconnect` does (`disconnectN_severs`). -/
def Severs (D : SessionId → World → Result) (w : World) : Prop :=
  ∀ {id s}, w.room.session? id = some s → (w.sessions s).connected = true →
    D s w = .error .erasedEntry ∨
      ∃ w', D s w = .ok w' ∧ id ∉ w'.room.players

theorem Linked.session_ne (h : Linked w) {id' : ObjectId} (hs : w.room.session? id = some s)
    (ht : w.room.session? id' = some t) (hne : id ≠ id') : s ≠ t := by
  rintro rfl
  have hsome := (h.player_of_session hs).symm.trans (h.player_of_session ht)
  exact hne (Option.some.inj hsome)

theorem GameRoom.exists_session? {r : GameRoom} (h : id ∈ r.players) :
    ∃ p, r.players[id]? = some p ∧ r.session? id = some p.session := by
  rw [ExtTreeMap.mem_iff_isSome_getElem?, Option.isSome_iff_exists] at h
  obtain ⟨p, hp⟩ := h
  exact ⟨p, hp, by rw [session?, hp]; rfl⟩

theorem broadcastFrom_cons {ids : List ObjectId} {p : Player}
    (hp : w.room.players[id]? = some p) :
    Reentrant.broadcastFrom P D pkt (id :: ids) w = (do
      let w₁ ← Reentrant.send P D p.session pkt w
      if id ∈ w₁.room.players then Reentrant.broadcastFrom P D pkt ids w₁
      else .error .erasedEntry) := by
  simp only [Reentrant.broadcastFrom, hp]

/-- The loop of a broadcast that loses nobody. -/
theorem broadcastFrom_of_not_drops {ids : List ObjectId} (pkt : ServerPacket) (hl : Linked w)
    (hnd : ids.Nodup)
    (hids : ∀ id ∈ ids, id ∈ w.room.players)
    (hdrops : ∀ id ∈ ids, ∀ s, w.room.session? id = some s → ¬ Drops P w s) :
    ∃ w', Reentrant.broadcastFrom P D pkt ids w = .ok w' ∧
      Quiet w w' ((ids.filterMap w.room.session?).map (.send · pkt)) := by
  induction ids generalizing w with
  | nil => exact ⟨w, rfl, .refl w⟩
  | cons id ids ih =>
    obtain ⟨hid, hnd⟩ := List.nodup_cons.1 hnd
    obtain ⟨p, hp, hs⟩ := GameRoom.exists_session? (hids id List.mem_cons_self)
    obtain ⟨w₁, hsend, hq, hother⟩ := send_of_not_drops (D := D)
      (hdrops id List.mem_cons_self _ hs) pkt
    -- the sessions still to come are other ones, and they are as before
    have hdrops₁ : ∀ id' ∈ ids, ∀ t, w₁.room.session? id' = some t → ¬ Drops P w₁ t := by
      intro id' hid' t ht
      rw [hq.room] at ht
      have hne : t ≠ p.session := hl.session_ne ht hs (by rintro rfl; exact hid hid')
      rw [Drops.congr (hother t hne)]
      exact hdrops id' (List.mem_cons_of_mem _ hid') t ht
    obtain ⟨w₂, hloop, hq₂⟩ := ih (hl.of_quiet hq) hnd
      (fun id' hid' => hq.room ▸ hids id' (List.mem_cons_of_mem _ hid')) hdrops₁
    refine ⟨w₂, ?_, ?_⟩
    · have hmem : id ∈ w₁.room.players := hq.room ▸ hids id List.mem_cons_self
      rw [broadcastFrom_cons hp, hsend]
      exact (if_pos hmem).trans hloop
    · rw [hq.room] at hq₂
      have h := hq.trans hq₂
      rwa [List.filterMap_cons_some hs, List.map_cons]

/-- The loop of a broadcast that loses somebody goes on from an erased entry. -/
theorem broadcastFrom_of_drops {ids : List ObjectId} (hl : Linked w) (hnd : ids.Nodup)
    (hids : ∀ id ∈ ids, id ∈ w.room.players)
    (hsev : ∀ w₁, w₁.room = w.room → Linked w₁ → Severs D w₁)
    (hdrop : ∃ id ∈ ids, ∃ s, w.room.session? id = some s ∧ Drops P w s) :
    Reentrant.broadcastFrom P D pkt ids w = .error .erasedEntry := by
  induction ids generalizing w with
  | nil => simp at hdrop
  | cons id ids ih =>
    obtain ⟨hid, hnd⟩ := List.nodup_cons.1 hnd
    obtain ⟨p, hp, hs⟩ := GameRoom.exists_session? (hids id List.mem_cons_self)
    by_cases hd : Drops P w p.session
    · -- this send drops its session, and that erases the entry the loop stands at
      obtain ⟨w₁, hq, -, hsend⟩ := send_of_drops (D := D) hd pkt
      have hc : (w₁.sessions p.session).connected = true := (hq.connected _).trans hd.1
      rw [broadcastFrom_cons hp, hsend]
      rcases hsev w₁ hq.room (hl.of_quiet hq) (hq.room ▸ hs) hc with he | ⟨w₂, hw₂, hgone⟩
      · rw [he]
        rfl
      · rw [hw₂]
        exact if_neg hgone
    · obtain ⟨w₁, hsend, hq, hother⟩ := send_of_not_drops (D := D) hd pkt
      have hmem : id ∈ w₁.room.players := hq.room ▸ hids id List.mem_cons_self
      rw [broadcastFrom_cons hp, hsend]
      refine (if_pos hmem).trans (ih (hl.of_quiet hq) hnd
        (fun id' h => hq.room ▸ hids id' (List.mem_cons_of_mem _ h))
        (fun w₂ h₂ => hsev w₂ (h₂.trans hq.room)) ?_)
      obtain ⟨id', hid', t, ht, hdt⟩ := hdrop
      rcases List.mem_cons.1 hid' with rfl | hmem'
      · rw [hs] at ht
        obtain rfl := Option.some.inj ht
        exact absurd hdt hd
      · have hne : t ≠ p.session := hl.session_ne ht hs (by rintro rfl; exact hid hmem')
        exact ⟨id', hmem', t, hq.room ▸ ht, (Drops.congr (hother t hne)).2 hdt⟩

/-- A broadcast either loses somebody and runs into an erased entry, or only talks. -/
theorem reentrant_broadcast_cases (hl : Linked w)
    (hsev : ∀ w₁, w₁.room = w.room → Linked w₁ → Severs D w₁) (pkt : ServerPacket) :
    (Reentrant.broadcast P D pkt w = .error .erasedEntry ∧
      ∃ s ∈ w.room.audience, Drops P w s) ∨
    ∃ w', Reentrant.broadcast P D pkt w = .ok w' ∧ Quiet w w' (w.room.announce pkt) ∧
      ∀ s ∈ w.room.audience, ¬ Drops P w s := by
  have hnd : w.room.players.keys.Nodup := ExtTreeMap.nodup_keys
  have hids : ∀ id ∈ w.room.players.keys, id ∈ w.room.players :=
    fun id hid => ExtTreeMap.mem_keys.1 hid
  by_cases h : ∃ s ∈ w.room.audience, Drops P w s
  · refine .inl ⟨broadcastFrom_of_drops hl hnd hids hsev ?_, h⟩
    obtain ⟨s, hs, hd⟩ := h
    obtain ⟨id, hid, hs⟩ := List.mem_filterMap.1 hs
    exact ⟨id, hid, s, hs, hd⟩
  · have hno : ∀ s ∈ w.room.audience, ¬ Drops P w s := fun s hs hd => h ⟨s, hs, hd⟩
    obtain ⟨w', hw', hq⟩ := broadcastFrom_of_not_drops (D := D) pkt hl hnd hids
      fun id _ s hs => hno s (GameRoom.mem_audience.2 ⟨id, hs⟩)
    exact .inr ⟨w', hw', hq, hno⟩

/-! ## Leaving -/

/-- What `RemoveObject(id)` has done when it returns. -/
inductive Removed (id : ObjectId) (w : World) : World → Prop
  | absent (hfind : w.room.findObject id = none) : Removed id w w
  | erased {ref : ObjectRef} {w' : World} (hfind : w.room.findObject id = some ref)
      (hquiet : Quiet (w.erase ref) w' ((w.erase ref).room.announce (.sRemoveObject [id]))) :
      Removed id w w'

/-- What `LeaveRoom` has done for a session when it returns. -/
inductive Left (s : SessionId) (w : World) : World → Prop
  | noPlayer (hplayer : (w.sessions s).player = none) : Left s w w
  | removed {id : ObjectId} {w' : World} (hplayer : (w.sessions s).player = some id)
      (hremoved : Removed id w w') : Left s w w'

theorem GameRoom.findObject_player {r : GameRoom} (h : id ∈ r.players) :
    r.findObject id = some (.player id) := if_pos h

theorem reentrant_removeObject_cases (hl : Linked w)
    (hsev : ∀ ref, w.room.findObject id = some ref → ∀ w₁, w₁.room = (w.erase ref).room →
      Linked w₁ → Severs D w₁) :
    Reentrant.removeObject P D id w = .error .erasedEntry ∨
      ∃ w', Reentrant.removeObject P D id w = .ok w' ∧ Removed id w w' := by
  rw [removeObject_eq hl]
  cases hf : w.room.findObject id with
  | none => exact .inr ⟨w, rfl, .absent hf⟩
  | some ref =>
    rcases reentrant_broadcast_cases (P := P) (hl.erase ref) (hsev ref hf) (.sRemoveObject [id])
      with ⟨he, -⟩ | ⟨w', hw', hq, -⟩
    · exact .inl he
    · exact .inr ⟨w', hw', .erased hf hq⟩

theorem reentrant_leaveRoom_cases (hl : Linked w)
    (hsev : ∀ id, (w.sessions s).player = some id → id ∈ w.room.players →
      ∀ w₁, w₁.room = (w.erase (.player id)).room → Linked w₁ → Severs D w₁) :
    Reentrant.leaveRoom P D s w = .error .erasedEntry ∨
      ∃ w', Reentrant.leaveRoom P D s w = .ok w' ∧ Left s w w' := by
  unfold Reentrant.leaveRoom
  cases hp : (w.sessions s).player with
  | none => exact .inr ⟨w, rfl, .noPlayer hp⟩
  | some id =>
    have hsev' : ∀ ref, w.room.findObject id = some ref → ∀ w₁, w₁.room = (w.erase ref).room →
        Linked w₁ → Severs D w₁ := by
      intro ref hf
      obtain ⟨rfl, hreg⟩ := GameRoom.findObject_eq_some hf
      cases ref with
      | player id => exact hsev id hp (GameRoom.registered_player.1 hreg)
      | monster id => exact absurd (GameRoom.registered_monster.1 hreg) (hl.not_monster hp)
    rcases reentrant_removeObject_cases (P := P) hl hsev' with he | ⟨w', hw', hrem⟩
    · exact .inl he
    · exact .inr ⟨w', hw', .removed hp hrem⟩

/-- What `Disconnect` has done when it returns. -/
inductive Disconnected (s : SessionId) (w : World) : World → Prop
  | already (hconnected : (w.sessions s).connected = false) : Disconnected s w w
  | left {w' : World} (hconnected : (w.sessions s).connected = true)
      (hleft : Left s (w.disconnected s) w') : Disconnected s w w'

theorem Disconnected.severs (h : Disconnected s w w') (hl : Linked w)
    (hs : w.room.session? id = some s) (hc : (w.sessions s).connected = true) :
    id ∉ w'.room.players := by
  have hp : ((w.disconnected s).sessions s).player = some id := by
    rw [World.player_disconnected]
    exact hl.player_of_session hs
  cases h with
  | already hno => rw [hno] at hc; cases hc
  | left _ hleft =>
    cases hleft with
    | noPlayer hno => rw [hno] at hp; cases hp
    | removed hp' hrem =>
      obtain rfl := Option.some.inj (hp'.symm.trans hp)
      cases hrem with
      | absent hnone => exact (GameRoom.findObject_eq_none.1 hnone).1
      | erased hsome hq =>
        rw [hq.room, ← GameRoom.registered_player, World.room_erase, GameRoom.registered_erase]
        rintro ⟨hne, hreg⟩
        have hf : w.room.findObject _ = some _ :=
          GameRoom.findObject_player (GameRoom.registered_player.1 hreg)
        exact hne (Option.some.inj (hf.symm.trans hsome))

/-- With a bound that exceeds the number of players, `Disconnect` returns or some loop runs into an
erased entry: each nested call takes a player out of the room before it broadcasts. -/
theorem disconnectN_cases {n : ℕ} (hl : Linked w) (hn : w.room.players.size < n) :
    disconnectN P n s w = .error .erasedEntry ∨
      ∃ w', disconnectN P n s w = .ok w' ∧ Disconnected s w w' := by
  induction n generalizing w s with
  | zero => omega
  | succ n ih =>
    rw [disconnectN, Reentrant.disconnectOnce]
    by_cases hc : (w.sessions s).connected = false
    · exact .inr ⟨w, if_pos hc, .already hc⟩
    · have hsev : ∀ id, ((w.disconnected s).sessions s).player = some id → id ∈ w.room.players →
          ∀ w₁, w₁.room = ((w.disconnected s).erase (.player id)).room → Linked w₁ →
            Severs (disconnectN P n) w₁ := by
        intro id _ hmem w₁ hroom hl₁ id' t ht hct
        have hpos : 0 < w.room.players.size := by
          rw [Nat.pos_iff_ne_zero]
          intro h0
          rw [ExtTreeMap.eq_empty_iff_size_eq_zero.2 h0] at hmem
          exact ExtTreeMap.not_mem_empty hmem
        have hsize : w₁.room.players.size = w.room.players.size - 1 := by
          rw [hroom]
          exact ExtTreeMap.size_erase.trans (if_pos hmem)
        rcases ih hl₁ (s := t) (by omega) with he | ⟨w₂, hw₂, hdis⟩
        · exact .inl he
        · exact .inr ⟨w₂, hw₂, hdis.severs hl₁ ht hct⟩
      rw [if_neg hc]
      rcases reentrant_leaveRoom_cases (P := P) (hl.disconnected s) hsev with
        he | ⟨w', hw', hleft⟩
      · exact .inl he
      · exact .inr ⟨w', hw', .left (eq_true_of_ne_false hc) hleft⟩

end

/-! ## The operations -/

theorem disconnect_cases (hl : Linked w) (s : SessionId) :
    disconnect P s w = .error .erasedEntry ∨ ∃ w', disconnect P s w = .ok w' ∧ Disconnected s w w' :=
  disconnectN_cases hl (Nat.lt_succ_self _)

theorem disconnect_severs (hl : Linked w) : Severs (disconnect P) w := by
  intro id s hs hc
  rcases disconnect_cases (P := P) hl s with he | ⟨w', hw', hdis⟩
  · exact .inl he
  · exact .inr ⟨w', hw', hdis.severs hl hs hc⟩

theorem broadcast_cases (hl : Linked w) (pkt : ServerPacket) :
    (broadcast P pkt w = .error .erasedEntry ∧ ∃ s ∈ w.room.audience, Drops P w s) ∨
    ∃ w', broadcast P pkt w = .ok w' ∧ Quiet w w' (w.room.announce pkt) ∧
      ∀ s ∈ w.room.audience, ¬ Drops P w s :=
  reentrant_broadcast_cases hl (fun _ _ hl₁ => disconnect_severs hl₁) pkt

/-- A broadcast that ends has told every player, and nothing else happened. -/
theorem broadcast_ok (hl : Linked w) (h : broadcast P pkt w = .ok w') :
    Quiet w w' (w.room.announce pkt) := by
  rcases broadcast_cases (P := P) hl pkt with ⟨he, -⟩ | ⟨w₁, hw₁, hq, -⟩
  · rw [h] at he
    cases he
  · rw [h] at hw₁
    obtain rfl := Except.ok.inj hw₁
    exact hq

/-- A broadcast ends exactly when no send in it drops its session. -/
theorem broadcast_eq_ok_iff (hl : Linked w) (pkt : ServerPacket) :
    (∃ w', broadcast P pkt w = .ok w') ↔ ∀ s ∈ w.room.audience, ¬ Drops P w s := by
  rcases broadcast_cases (P := P) hl pkt with ⟨he, s, hs, hd⟩ | ⟨w', hw', -, hno⟩
  · rw [he]
    constructor
    · rintro ⟨w', hw'⟩
      cases hw'
    · intro h
      exact absurd hd (h s hs)
  · exact ⟨fun _ => hno, fun _ => ⟨w', hw'⟩⟩

theorem broadcast_ne_outOfFuel (hl : Linked w) (pkt : ServerPacket) :
    broadcast P pkt w ≠ .error .outOfFuel := by
  rcases broadcast_cases (P := P) hl pkt with ⟨he, -⟩ | ⟨w', hw', -⟩
  · rw [he]
    intro h
    cases h
  · rw [hw']
    intro h
    cases h

theorem removeObject_ok (hl : Linked w) (h : removeObject P id w = .ok w') : Removed id w w' := by
  rcases reentrant_removeObject_cases (D := disconnect P) hl
    (fun _ _ _ _ hl₁ => disconnect_severs hl₁) with he | ⟨w₁, hw₁, hrem⟩
  · cases h.symm.trans he
  · obtain rfl := Except.ok.inj (h.symm.trans hw₁)
    exact hrem

theorem leaveRoom_ok (hl : Linked w) (h : leaveRoom P s w = .ok w') : Left s w w' := by
  rcases reentrant_leaveRoom_cases (D := disconnect P) hl
    (fun _ _ _ _ _ hl₁ => disconnect_severs hl₁) with he | ⟨w₁, hw₁, hleft⟩
  · cases h.symm.trans he
  · obtain rfl := Except.ok.inj (h.symm.trans hw₁)
    exact hleft

theorem disconnect_ok (hl : Linked w) (h : disconnect P s w = .ok w') : Disconnected s w w' := by
  rcases disconnect_cases (P := P) hl s with he | ⟨w₁, hw₁, hdis⟩
  · cases h.symm.trans he
  · obtain rfl := Except.ok.inj (h.symm.trans hw₁)
    exact hdis

/-! ## Sending to somebody who is not in the room -/

/-- The session's player, if it has one, is not registered. -/
def Absent (w : World) (s : SessionId) : Prop :=
  ∀ id, (w.sessions s).player = some id → id ∉ w.room.players

theorem Absent.of_still {evs : List Event} (h : Absent w s) (hq : Still w w' evs) : Absent w' s := by
  intro id hp
  rw [hq.room]
  exact h id (hq.player s ▸ hp)

/-- A send that drops a session whose player is not in the room disconnects it, and that is all. -/
theorem send_absent_of_drops (hl : Linked w) (ha : Absent w s) (hd : Drops P w s)
    (h : send P s pkt w = .ok w') :
    QuietBut s w w' [.send s pkt] ∧ (w'.sessions s).connected = false := by
  obtain ⟨w₁, hq, hother, hsend⟩ := send_of_drops (D := disconnect P) hd pkt
  obtain ⟨w₂, hdis, hclear⟩ := bind_eq_ok.1 (hsend.symm.trans h)
  obtain rfl := Except.ok.inj hclear
  have hl₁ : Linked w₁ := hl.of_quiet hq
  have hw₂ : w₂ = w₁.disconnected s := by
    cases disconnect_ok hl₁ hdis with
    | already hno => cases hno.symm.trans ((hq.connected s).trans hd.1)
    | left _ hleft =>
      cases hleft with
      | noPlayer => rfl
      | removed hp hrem =>
        cases hrem with
        | absent => rfl
        | @erased ref _ hfind =>
          -- the session's player would have to be in one of the two maps
          rw [World.player_disconnected] at hp
          obtain ⟨rfl, hreg⟩ := GameRoom.findObject_eq_some hfind
          cases ref with
          | player id =>
            exact absurd (GameRoom.registered_player.1 hreg) ((ha.of_still hq.toStill) id hp)
          | monster id => exact absurd (GameRoom.registered_monster.1 hreg) (hl₁.not_monster hp)
  subst hw₂
  have hself : ((w₁.disconnected s).setSession s ((w₁.disconnected s).sessions s).clear).sessions s =
      { (w₁.sessions s).clear with connected := false } := by
    rw [World.sessions_setSession_self, World.disconnected, World.sessions_setSession_self]
    rfl
  have hne : ∀ t, t ≠ s → ((w₁.disconnected s).setSession s
      ((w₁.disconnected s).sessions s).clear).sessions t = w₁.sessions t := by
    intro t ht
    rw [World.sessions_setSession_of_ne ht, World.disconnected, World.sessions_setSession_of_ne ht]
  refine ⟨⟨⟨hq.room, hq.idGenerator, hq.trace, ?_, ?_⟩, ?_⟩, by rw [hself]⟩
  · intro t
    rcases eq_or_ne t s with rfl | ht
    · rw [hself]
      exact hq.player t
    · rw [hne t ht]
      exact hq.player t
  · intro t
    rcases eq_or_ne t s with rfl | ht
    · rw [hself]
      exact hq.gameRoom t
    · rw [hne t ht]
      exact hq.gameRoom t
  · intro t ht
    rw [hne t ht]
    exact hq.connected t

theorem send_ok_of_not_drops (hd : ¬ Drops P w s) (h : send P s pkt w = .ok w') :
    Quiet w w' [.send s pkt] := by
  obtain ⟨w₁, hw₁, hq, -⟩ := send_of_not_drops (D := disconnect P) hd pkt
  obtain rfl := Except.ok.inj (hw₁.symm.trans h)
  exact hq

theorem send_absent (hl : Linked w) (ha : Absent w s) (h : send P s pkt w = .ok w') :
    QuietBut s w w' [.send s pkt] := by
  by_cases hd : Drops P w s
  · exact (send_absent_of_drops hl ha hd h).1
  · exact (send_ok_of_not_drops hd h).but s

end Zelda.Server
