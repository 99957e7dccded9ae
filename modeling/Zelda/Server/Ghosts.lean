import Zelda.Server.Runs

/-!
# Ghost players

A ghost is a player of the room whose session is not connected (`NoGhosts` says there is none).
`Disconnect` cleans up once: if it runs while the session is still on its way in, before `EnterRoom`
adds the player, there is nothing to clean up yet and nothing cleans up later.

A connecting session is sent three messages before its player is added, and `WSASend` is called for
the next of them only as long as the calls before failed without disconnecting. If none of these
calls fails with a code that disconnects (`Platform.resetsWithin`), no run has a ghost; if one does,
the step leaves one (`noGhosts_of_run`).
-/

namespace Zelda.Server

open Protocol Std

variable {P : Platform} {w w' : World} {s : SessionId} {pkt : ServerPacket} {evs : List Event}
  {tilemap : Tilemap}

/-- Every player in the room belongs to a connected session. -/
def NoGhosts (w : World) : Prop :=
  ∀ (id : ObjectId) (p : Player), w.room.players[id]? = some p →
    (w.sessions p.session).connected = true

theorem noGhosts_iff :
    NoGhosts w ↔ ∀ id s, w.room.session? id = some s → (w.sessions s).connected = true := by
  constructor
  · intro h id s hs
    obtain ⟨p, hp, rfl⟩ := Option.map_eq_some_iff.1 hs
    exact h id p hp
  · intro h id p hp
    exact h id p.session (Option.map_eq_some_iff.2 ⟨p, hp, rfl⟩)

/-! ## The sends to a session on its way in -/

/-- Of the first `k` sends to an idle session, starting with the `n`-th `WSASend`, one disconnects
it: the calls before it fail too, but with another code, so that each send makes a call. -/
def Platform.resetsWithin (P : Platform) (s : SessionId) : ℕ → ℕ → Bool
  | 0, _ => false
  | k + 1, n =>
    match P.wsaSend s n with
    | .accepted => false
    | .failed errorCode => (SocketResult.failed errorCode).resets || P.resetsWithin s k (n + 1)

/-- The session is connected and stays so for another `k` sends. -/
def Survives (P : Platform) (s : SessionId) (k : ℕ) (w : World) : Prop :=
  (w.sessions s).connected = true ∧
    ((w.sessions s).sendRegistered = true ∨ P.resetsWithin s k (w.sessions s).wsaSends = false)

theorem survives_zero : Survives P s 0 w ↔ (w.sessions s).connected = true :=
  and_iff_left (.inr rfl)

/-- One send uses up one of the sends that the session survives. -/
theorem survives_send (hl : Linked w) (ha : Absent w s) {k : ℕ}
    (hok : send P s pkt w = .ok w') : Survives P s k w' ↔ Survives P s (k + 1) w := by
  by_cases hd : Drops P w s
  · -- the send drops the session
    have hno := (send_absent_of_drops hl ha hd hok).2
    obtain ⟨-, hreg, hres⟩ := hd
    constructor
    · rintro ⟨hc, -⟩
      cases hno.symm.trans hc
    · rintro ⟨-, h | h⟩
      · cases hreg.symm.trans h
      · rw [Platform.resetsWithin] at h
        split at h
        · rename_i hP
          rw [hP] at hres
          cases hres
        · rename_i hP
          rw [← hP, hres, Bool.true_or] at h
          cases h
  · have hc := (send_ok_of_not_drops hd hok).connected s
    by_cases hcon : (w.sessions s).connected = true
    · unfold send Reentrant.send at hok
      by_cases hreg : (w.sessions s).sendRegistered = true
      · -- a call is under way already
        simp only [hreg, if_true] at hok
        obtain rfl := Except.ok.inj hok
        have hself : ∀ w₁ : World, ((w₁.setSession s ((w₁.sessions s).push pkt)).log
            (.send s pkt)).sessions s = (w₁.sessions s).push pkt :=
          fun _ => World.sessions_setSession_self
        rw [Survives, Survives, hself]
        exact and_congr_right fun _ => iff_of_true (.inl rfl) (.inl hreg)
      · -- this send makes a call
        have hself : ∀ (w₁ : World) (g : GameSession), (w₁.setSession s g).sessions s = g :=
          fun _ _ => World.sessions_setSession_self
        simp only [hreg, Bool.false_eq_true, if_false, Reentrant.registerSend, World.sessions_log,
          hself, GameSession.push, hcon, Bool.true_eq_false] at hok
        split at hok
        · rename_i hP
          obtain rfl := Except.ok.inj hok
          rw [Survives, Survives, hself, Platform.resetsWithin, hP]
          exact iff_of_true ⟨rfl, .inl rfl⟩ ⟨hcon, .inr rfl⟩
        · rename_i errorCode hP
          have hres : (SocketResult.failed errorCode).resets = false := by
            refine eq_false_of_ne_true fun hres => hd ⟨hcon, eq_false_of_ne_true hreg, ?_⟩
            rw [hP]
            exact hres
          simp only [Reentrant.handleError, hres, Bool.false_eq_true, if_false] at hok
          obtain rfl := Except.ok.inj hok
          rw [Survives, Survives, hself, Platform.resetsWithin, hP]
          simp only [GameSession.clear, GameSession.issue, hself, hcon, hreg, hres,
            Bool.false_eq_true, Bool.false_or, false_or]
    · rw [Survives, Survives, hc]
      simp only [hcon, Bool.false_eq_true, false_and]

theorem Survives.congr {k : ℕ} (hc : (w'.sessions s).connected = (w.sessions s).connected)
    (hr : (w'.sessions s).sendRegistered = (w.sessions s).sendRegistered)
    (hn : (w'.sessions s).wsaSends = (w.sessions s).wsaSends) :
    Survives P s k w' ↔ Survives P s k w := by
  rw [Survives, Survives, hc, hr, hn]

/-- **A session that has connected is still connected when its player is in the room exactly when
none of the sends on the way disconnected it.** -/
theorem processConnect_connected_iff (h : Registry w) (hnew : w.sessions s = {})
    (hok : processConnect P s w = .ok w') :
    (w'.sessions s).connected = true ↔ P.resetsWithin s 3 0 = false := by
  obtain ⟨w₁, henter, hok⟩ := bind_eq_ok.1 hok
  obtain ⟨w₂, hmy, hok⟩ := bind_eq_ok.1 hok
  obtain ⟨w₃, hall, hadd⟩ := bind_eq_ok.1 hok
  set w₀ := w.setSession s { w.sessions s with connected := true } with hw₀
  have hself : w₀.sessions s = { connected := true } := by
    rw [hw₀, World.sessions_setSession_self, hnew]
  have h₀ : Registry w₀ := h.setConnected s true
  have habsent : Absent w₀ s := by
    intro id hid
    rw [hself] at hid
    cases hid
  -- greeting, then linking the session to its player, then the two messages of `EnterRoom`
  have hq₁ := send_absent h₀.toLinked habsent henter
  have h₁ : Registry w₁ := h₀.of_still hq₁.toStill
  have hnone : (w₁.sessions s).player = none := by rw [hq₁.player, hself]
  have hq₂ := send_absent (h₁.link hnone).toLinked (h₁.absent_link s) hmy
  have h₂ := (h₁.link hnone).of_still hq₂.toStill
  have ha₂ := (h₁.absent_link s).of_still hq₂.toStill
  have hq₃ := send_absent h₂.toLinked ha₂ hall
  have hlink : ∀ k, Survives P s k (w₁.link s) ↔ Survives P s k w₁ := by
    intro k
    have hl : (w₁.link s).sessions s =
        { w₁.sessions s with gameRoom := true, player := some w₁.idGenerator } :=
      World.sessions_setSession_self
    exact Survives.congr (by rw [hl]) (by rw [hl]) (by rw [hl])
  have hbroadcast := broadcast_ok (h₁.entering hnone (hq₂.trans hq₃).toStill).toLinked hadd
  calc (w'.sessions s).connected = true
      ↔ (w₃.sessions s).connected = true := by rw [hbroadcast.connected]; rfl
    _ ↔ Survives P s 0 w₃ := survives_zero.symm
    _ ↔ Survives P s 1 w₂ := survives_send h₂.toLinked ha₂ hall
    _ ↔ Survives P s 2 (w₁.link s) :=
        survives_send (h₁.link hnone).toLinked (h₁.absent_link s) hmy
    _ ↔ Survives P s 2 w₁ := hlink 2
    _ ↔ Survives P s 3 w₀ := survives_send h₀.toLinked habsent henter
    _ ↔ P.resetsWithin s 3 0 = false := by
        rw [Survives, hself]
        simp only [Bool.false_eq_true, true_and, false_or]

/-! ## No step makes a ghost -/

theorem NoGhosts.of_session (h : NoGhosts w)
    (hs : ∀ id t, w'.room.session? id = some t → w.room.session? id = some t)
    (hc : ∀ t, (w'.sessions t).connected = (w.sessions t).connected) : NoGhosts w' := by
  rw [noGhosts_iff] at h ⊢
  intro id t ht
  rw [hc]
  exact h id t (hs id t ht)

theorem NoGhosts.of_quiet (h : NoGhosts w) (hq : Quiet w w' evs) : NoGhosts w' :=
  h.of_session (fun _ _ ht => hq.room ▸ ht) hq.connected

theorem NoGhosts.modifyInfo (h : NoGhosts w) (ref : ObjectRef) (f : ObjectInfo → ObjectInfo) :
    NoGhosts (w.modifyInfo ref f) :=
  h.of_session (fun id _ ht => (World.session?_modifyInfo id).symm.trans ht) fun _ => rfl

theorem NoGhosts.modifyMonster (h : NoGhosts w) (id : ObjectId) (f : Monster → Monster) :
    NoGhosts (w.modifyMonster id f) :=
  h.of_session (fun _ _ ht => ht) fun _ => rfl

theorem NoGhosts.erase (h : NoGhosts w) (ref : ObjectRef) : NoGhosts (w.erase ref) := by
  refine h.of_session (fun id t ht => ?_) fun _ => rfl
  rw [World.session?_erase] at ht
  split at ht
  · cases ht
  · exact ht

theorem Edit.noGhosts (he : Edit w w') (h : NoGhosts w) : NoGhosts w' := by
  cases he with
  | skill id => exact h.of_quiet (.log w _)
  | damage => exact h.of_quiet (.log w _)
  | hurt _ _ _ hq => exact (h.modifyInfo _ _).of_quiet hq
  | erase _ hq => exact (h.erase _).of_quiet hq
  | think => exact h.modifyMonster _ _
  | act _ _ _ hq => exact (h.modifyMonster _ _).of_quiet hq
  | announce _ hq => exact h.of_quiet hq

theorem Edits.noGhosts (he : Edits w w') (h : NoGhosts w) : NoGhosts w' := by
  induction he with
  | refl => exact h
  | tail _ he ih => exact he.noGhosts ih

theorem Moved.noGhosts {pkt : CMove} (hm : Moved pkt w w') (h : NoGhosts w) : NoGhosts w' := by
  cases hm with
  | absent => exact h
  | moved _ _ hattack _ hq => exact (hattack.edits.noGhosts (h.modifyInfo _ _)).of_quiet hq

/-- `Disconnect` takes the session's player out of the room. -/
theorem Disconnected.noGhosts (hd : Disconnected s w w') (hr : Registry w) (h : NoGhosts w) :
    NoGhosts w' := by
  cases hd with
  | already => exact h
  | left _ hleft =>
    rw [noGhosts_iff] at h
    have hother : ∀ id t, w.room.session? id = some t → t ≠ s →
        ((w.disconnected s).sessions t).connected = true := by
      intro id t ht hne
      rw [World.disconnected, World.sessions_setSession_of_ne hne]
      exact h id t ht
    have hplayer : ((w.disconnected s).sessions s).player = (w.sessions s).player :=
      World.player_disconnected w s s
    rw [noGhosts_iff]
    cases hleft with
    | noPlayer hnone =>
      intro id t ht
      refine hother id t ht ?_
      rintro rfl
      cases (hplayer.symm.trans hnone).symm.trans (hr.player_of_session ht)
    | removed hsome hrem =>
      have hid : ∀ id', w.room.session? id' = some s → id' = _ := fun id' ht =>
        Option.some.inj ((hr.player_of_session ht).symm.trans (hplayer.symm.trans hsome))
      cases hrem with
      | absent hnone =>
        intro id' t ht
        refine hother id' t ht ?_
        rintro rfl
        obtain rfl := hid id' ht
        exact (GameRoom.findObject_eq_none.1 hnone).1 (GameRoom.mem_players_of_session? ht)
      | @erased ref _ hfind hq =>
        intro id' t ht
        rw [hq.room, World.session?_erase] at ht
        split at ht
        · cases ht
        · rename_i hne
          rw [hq.connected]
          refine hother id' t ht ?_
          rintro rfl
          obtain rfl := hid id' ht
          have hfind' : w.room.findObject id' = some (.player id') :=
            GameRoom.findObject_player (GameRoom.mem_players_of_session? ht)
          exact hne (Option.some.inj (hfind.symm.trans hfind'))

theorem Sent.noGhosts (hs : Sent s w w') (hr : Registry w) (h : NoGhosts w) : NoGhosts w' := by
  cases hs with
  | quiet hq => exact h.of_quiet hq
  | disconnected hq hdis hclear =>
    exact (hdis.noGhosts (hr.of_quiet hq) (h.of_quiet hq)).of_quiet hclear

/-- A connection makes no ghost exactly when its session is still connected in the end. -/
theorem Connected.noGhosts_iff (hc : Connected s w w') (hs : (w.sessions s).player = none)
    (hr : Registry w) (h : NoGhosts w) : NoGhosts w' ↔ (w'.sessions s).connected = true := by
  obtain ⟨hsend, hsends, hadd⟩ := hc
  rename_i w₁ w₂
  set player := enteringPlayer w₁.idGenerator s with hplayer
  have hsession : ∀ id, w'.room.session? id =
      if id = player.info.objectid then some s else w.room.session? id := by
    intro id
    have hroom : w₂.room = w.room := hsends.room.trans hsend.room
    rw [hadd.room, World.room_setRoom, hroom, GameRoom.session?_addPlayer]
    rfl
  have hconnected : ∀ t, t ≠ s → (w'.sessions t).connected = (w.sessions t).connected := by
    intro t ht
    have h₁ := hsend.connected t ht
    have h₂ := hsends.connected t ht
    rw [World.sessions_setSession_of_ne ht] at h₁
    have hlink : (w₁.link s).sessions t = w₁.sessions t := World.sessions_setSession_of_ne ht
    rw [hlink] at h₂
    exact (hadd.connected t).trans (h₂.trans h₁)
  rw [Server.noGhosts_iff] at h ⊢
  constructor
  · intro h'
    exact h' player.info.objectid s (by rw [hsession, if_pos rfl])
  · intro hcon id t ht
    rw [hsession] at ht
    split at ht
    · obtain rfl := Option.some.inj ht
      exact hcon
    · have hne : t ≠ s := by
        rintro rfl
        cases hs.symm.trans (hr.player_of_session ht)
      rw [hconnected t hne]
      exact h id t ht

/-- No send on the way in disconnects the connecting session. -/
def SafeEntry (P : Platform) (_ : World) : ServerEvent → Prop
  | .processConnect s => P.resetsWithin s 3 0 = false
  | _ => True

theorem processConnect_noGhosts_iff (h : Registry w) (hg : NoGhosts w) (hnew : w.sessions s = {})
    (hok : processConnect P s w = .ok w') : NoGhosts w' ↔ P.resetsWithin s 3 0 = false := by
  have hnone : (w.sessions s).player = none := congrArg GameSession.player hnew
  rw [(processConnect_ok h hnone hok).noGhosts_iff hnone h hg]
  exact processConnect_connected_iff h hnew hok

theorem ServerStep.noGhosts {ev : ServerEvent} (hs : ServerStep P w ev w')
    (hC : SafeEntry P w ev) (hr : Registry w) (h : NoGhosts w) : NoGhosts w' := by
  cases hs with
  | processConnect hnew hok => exact (processConnect_noGhosts_iff hr h hnew hok).2 hC
  | disconnect hok => exact (disconnect_ok hr.toLinked hok).noGhosts hr h
  | receiveCMove hok =>
    rcases receiveCMove_ok hr hok with rfl | hm
    · exact h
    · exact hm.noGhosts h
  | processSend hok => exact (processSend_ok hr hok).noGhosts hr h
  | update hok => exact (update_edits hr hok).noGhosts h

/-- **No run in which every entry is safe has a ghost, and an entry that is not safe makes one.** -/
theorem noGhosts_of_run (h : Reaches (ServerStep P) (SafeEntry P) (World.init tilemap) w) :
    NoGhosts w ∧ ∀ s w', ServerStep P w (.processConnect s) w' →
      (NoGhosts w' ↔ P.resetsWithin s 3 0 = false) := by
  have hinit : NoGhosts (World.init tilemap) := fun id p hp => by
    have hplayers : (World.init tilemap).room.players = ∅ := rfl
    rw [hplayers] at hp
    simp at hp
  have hboth : Registry w ∧ NoGhosts w :=
    h.invariant (I := fun w => Registry w ∧ NoGhosts w)
      (fun _ _ _ hI hC hs => ⟨hs.registry hI.1, hs.noGhosts hC hI.1 hI.2⟩)
      ⟨registry_init tilemap, hinit⟩
  refine ⟨hboth.2, fun s w' hs => ?_⟩
  cases hs with
  | processConnect hnew hok => exact processConnect_noGhosts_iff hboth.1 hboth.2 hnew hok

/-! ## A connection whose greeting fails -/

/-- The server after `session 0` has connected, on a network with the given outcome. -/
def afterConnect (outcome : SocketResult) : World :=
  Result.world (processConnect (.always outcome) 0 (World.init {}))

theorem serverStep_afterConnect_reset :
    ServerStep (.always (.failed wsaeConnReset)) (World.init {}) (.processConnect 0)
      (afterConnect (.failed wsaeConnReset)) :=
  .processConnect rfl rfl

/-- The greeting of the first session fails with `WSAECONNRESET`: its player stays in the room. -/
theorem ghost_afterConnect_reset :
    ServerReachable (.always (.failed wsaeConnReset)) {} (afterConnect (.failed wsaeConnReset)) ∧
      ¬ NoGhosts (afterConnect (.failed wsaeConnReset)) := by
  refine ⟨.single trivial serverStep_afterConnect_reset, ?_⟩
  intro h
  have hsession : (afterConnect (.failed wsaeConnReset)).room.session? 2 = some 0 := by decide
  have hcon := noGhosts_iff.1 h 2 0 hsession
  exact absurd hcon (by decide)

theorem noGhosts_afterConnect_accepted : NoGhosts (afterConnect .accepted) := by
  have hrun : Reaches (ServerStep (.always .accepted)) (SafeEntry (.always .accepted))
      (World.init {}) (afterConnect .accepted) :=
    .single (e := .processConnect 0) rfl (.processConnect rfl rfl)
  exact (noGhosts_of_run hrun).1

end Zelda.Server
