import Zelda.Replication
import Zelda.Swings
import Zelda.WeaponSwitches

/-!
# The traffic about a player

The server of an `Exchange` is the server of the room as one client sees it: the info of its player,
and the `S_Move`s about it that are under way to its session (`Views`). Whatever the server does
while the player is in the room is something that the server of the exchange can do, too: it handles
the packet of the session (`Moved.views`), or it sends by itself (`ServerStep.views`).

Main result: `Traffic.weapons_of_serverRun`. So what holds of the weapons in every run of the
exchange holds in every run of a client and the whole server.
-/

namespace Zelda.Server

open Protocol

variable {P : Platform} {w w₁ w' : World} {s : SessionId} {id : ObjectId} {ref : ObjectRef}
  {n : ℕ} {x y : Exchange} {msg : ServerPacket} {info : ObjectInfo} {pkt : CMove}

/-- The `S_Move`s about an object among the packets. -/
def movesOf (id : ObjectId) (pkts : List ServerPacket) : List ObjectInfo :=
  pkts.filterMap fun
    | .sMove info => if info.objectid = id then some info else none
    | _ => none

theorem movesOf_append (id : ObjectId) (l l' : List ServerPacket) :
    movesOf id (l ++ l') = movesOf id l ++ movesOf id l' := List.filterMap_append

theorem movesOf_self (h : info.objectid = id) : movesOf id [.sMove info] = [info] := by
  simp [movesOf, h]

theorem movesOf_other (h : info.objectid ≠ id) : movesOf id [.sMove info] = [] := by
  simp [movesOf, h]

namespace Exchange

/-- The server of the exchange is the room, as far as the player of the session is concerned: it has
the info of the player, and what is under way to the client is what the session was sent about it,
but for the first `n` messages. -/
structure Views (s : SessionId) (id : ObjectId) (n : ℕ) (w : World) (x : Exchange) : Prop where
  info : w.room.info? (.player id) = some x.info
  session : w.room.session? id = some s
  down : ∃ old, old.length = n ∧ movesOf id (sentTo s w.trace) = old ++ x.down

/-- The server sends by itself, and nothing else happens. -/
def Speaks (_ : Exchange) (ev : Event) : Prop := (∃ hp, ev = .hurt hp) ∨ ev = .announce

theorem Views.present (h : x.Views s id n w) : id ∈ w.room.players :=
  GameRoom.registered_player.1 (GameRoom.registered_of_info? h.info)

/-- Nothing about the player has changed, and its session was told nothing about it. -/
theorem Views.congr (h : x.Views s id n w)
    (hinfo : w'.room.info? (.player id) = w.room.info? (.player id))
    (hsession : w'.room.session? id = w.room.session? id)
    (hmoves : movesOf id (sentTo s w'.trace) = movesOf id (sentTo s w.trace)) :
    x.Views s id n w' where
  info := hinfo.trans h.info
  session := hsession.trans h.session
  down := by
    rw [hmoves]
    exact h.down

theorem Views.of_still (h : x.Views s id n w) (hq : Still w w' []) : x.Views s id n w' := by
  refine h.congr (by rw [hq.room]) (by rw [hq.room]) ?_
  rw [hq.trace, List.append_nil]

/-- The room was told something. -/
theorem Views.announced (h : x.Views s id n w) (hr : Registry w₁)
    (hq : Server.Quiet w₁ w' (w₁.room.announce msg)) (htrace : w₁.trace = w.trace)
    (hsession : w₁.room.session? id = w.room.session? id)
    (hinfo : w₁.room.info? (.player id) = some y.info)
    (hdown : y.down = x.down ++ movesOf id [msg]) : y.Views s id n w' := by
  have hs : w₁.room.session? id = some s := hsession.trans h.session
  have hmem : s ∈ w₁.room.audience := GameRoom.mem_audience.2 ⟨id, hs⟩
  obtain ⟨old, hlen, hold⟩ := h.down
  refine ⟨by rw [hq.room, hinfo], by rw [hq.room, hs], old, hlen, ?_⟩
  rw [hq.trace, htrace, sentTo_append, movesOf_append, hold,
    sentTo_announce hr.toLinked.nodup_audience, if_pos hmem, hdown, List.append_assoc]

/-- The room was told something about another object, or nothing that is an `S_Move`. -/
theorem Views.announced_other (h : x.Views s id n w) (hr : Registry w₁)
    (hq : Server.Quiet w₁ w' (w₁.room.announce msg)) (htrace : w₁.trace = w.trace)
    (hsession : w₁.room.session? id = w.room.session? id)
    (hinfo : w₁.room.info? (.player id) = w.room.info? (.player id))
    (hmsg : movesOf id [msg] = []) : x.Views s id n w' :=
  h.announced hr hq htrace hsession (hinfo.trans h.info) (by rw [hmsg, List.append_nil])

/-- An event that is no send tells nobody anything. -/
theorem Views.log (h : x.Views s id n w) {e : Server.Event} (he : e.packetTo s = none) :
    x.Views s id n (w.log e) := by
  refine h.congr rfl rfl ?_
  have hnone : sentTo s [e] = [] := by
    refine sentTo_of_forall fun e' he' => ?_
    rw [List.mem_singleton.1 he']
    exact he
  rw [World.trace_log, sentTo_append, hnone, List.append_nil]

end Exchange

/-- Another object has another id. -/
theorem Registry.id_ne (h : Registry w) (hi : w.room.info? ref = some info)
    (hid : id ∈ w.room.players) (hne : ref ≠ .player id) : info.objectid ≠ id := by
  rw [h.objectid hi]
  intro heq
  have hplayer : w.room.Registered (.player id) := GameRoom.registered_player.2 hid
  have hnone := h.alone hplayer heq hne
  cases hi.symm.trans hnone

/-- **An edit is something that the server of the exchange can do by itself.** -/
theorem Edit.views (he : Edit w w') (hr : Registry w) (hv : x.Views s id n w)
    (hstay : id ∈ w'.room.players) :
    ∃ x', Reaches Exchange.Step Exchange.Speaks x x' ∧ x'.Views s id n w' := by
  have hid := hv.present
  cases he with
  | skill | damage => exact ⟨x, .refl x, hv.log rfl⟩
  | @hurt _ _ victim a v ha hvictim hpos hq =>
    have hr₁ : Registry (w.modifyInfo victim (·.setHp (hpAfter a v))) :=
      hr.modifyInfo fun _ => ⟨rfl, rfl⟩
    have hinfo := World.info?_modifyInfo_of_info? (f := (·.setHp (hpAfter a v))) hvictim (.player id)
    by_cases hself : victim = .player id
    · subst hself
      obtain rfl := Option.some.inj (hv.info.symm.trans hvictim)
      have hmoves : movesOf id [.sMove (x.info.setHp (hpAfter a x.info))] =
          [x.info.setHp (hpAfter a x.info)] := movesOf_self (hr.objectid hvictim)
      refine ⟨x.hurt (hpAfter a x.info), .single (.inl ⟨_, rfl⟩) .hurt, ?_⟩
      refine hv.announced hr₁ hq rfl (World.session?_modifyInfo id) ?_ ?_
      · rw [hinfo, if_pos rfl]
        rfl
      · rw [hmoves]
        rfl
    · have hne : v.objectid ≠ id := hr.id_ne hvictim hid hself
      have hmoves : movesOf id [.sMove (v.setHp (hpAfter a v))] = [] := movesOf_other hne
      refine ⟨x, .refl x, hv.announced_other hr₁ hq rfl (World.session?_modifyInfo id) ?_ hmoves⟩
      rw [hinfo, if_neg (Ne.symm hself)]
  | @erase _ ref hreg hq =>
    have hother : ref ≠ .player id := by
      rw [hq.room, World.room_erase, ← GameRoom.registered_player,
        GameRoom.registered_erase] at hstay
      exact fun href => hstay.1 href.symm
    refine ⟨x, .refl x, hv.announced_other (hr.erase _) hq rfl ?_ ?_ rfl⟩
    · rw [World.session?_erase, if_neg hother]
    · rw [World.info?_erase, if_neg (Ne.symm hother)]
  | think =>
    refine ⟨x, .refl x, hv.congr ?_ rfl rfl⟩
    rw [World.info?_modifyMonster, if_neg ObjectRef.noConfusion]
  | @act _ mid m f hm hbody _ hq =>
    have hmonster : w.room.info? (.monster mid) = some m.info := GameRoom.info?_of_monster hm
    have hmoves : movesOf id [.sMove (f m).info] = [] := by
      refine movesOf_other ?_
      rw [hbody.objectid]
      exact hr.id_ne hmonster hid ObjectRef.noConfusion
    refine ⟨x, .refl x, hv.announced_other (hr.modifyMonster_body hm hbody) hq rfl rfl ?_ hmoves⟩
    rw [World.info?_modifyMonster, if_neg ObjectRef.noConfusion]
  | @announce _ ref info hinfo hq =>
    by_cases hself : ref = .player id
    · subst hself
      obtain rfl := Option.some.inj (hv.info.symm.trans hinfo)
      have hmoves : movesOf id [.sMove x.info] = [x.info] := movesOf_self (hr.objectid hinfo)
      refine ⟨x.announce, .single (.inr rfl) .announce, hv.announced hr hq rfl rfl hinfo ?_⟩
      rw [hmoves]
      rfl
    · exact ⟨x, .refl x, hv.announced_other hr hq rfl rfl rfl
        (movesOf_other (hr.id_ne hinfo hid hself))⟩

theorem Edits.views (he : Edits w w') (hr : Registry w) (hv : x.Views s id n w)
    (hstay : id ∈ w'.room.players) :
    ∃ x', Reaches Exchange.Step Exchange.Speaks x x' ∧ x'.Views s id n w' := by
  induction he with
  | refl => exact ⟨x, .refl x, hv⟩
  | tail hfirst hlast ih =>
    obtain ⟨x₁, hrun, hv₁⟩ := ih (Edits.mem_players (.single hlast) hstay)
    obtain ⟨x₂, hrun', hv₂⟩ := hlast.views (Edits.registry hfirst hr) hv₁ hstay
    exact ⟨x₂, hrun.trans hrun', hv₂⟩

/-- An attack of somebody else's object, or of the player itself, tells nothing about the player. -/
theorem Attack.views (ha : Attack ref w w') (hr : Registry w) (hv : x.Views s id n w) :
    x.Views s id n w' := by
  have hid := hv.present
  cases ha with
  | none => exact hv
  | missed => exact hv.log rfl
  | @hit p mid _ _ _ _ hhit =>
    have hlog : x.Views s id n (w.log (.processSkill ref.id)) := hv.log rfl
    have hrlog : Registry (w.log (.processSkill ref.id)) := hr.of_quiet (.log w _)
    cases hhit with
    | missed => exact hlog
    | @hurt a v _ _ hvictim _ hq =>
      have hne : v.objectid ≠ id := hr.id_ne hvictim hid ObjectRef.noConfusion
      refine (hlog.log rfl).announced_other ?_ hq rfl ?_ ?_ ?_
      · exact (hrlog.of_quiet (.log _ _)).modifyInfo fun _ => ⟨rfl, rfl⟩
      · rw [World.session?_modifyInfo]
      · rw [World.info?_modifyInfo, if_neg ObjectRef.noConfusion]
      · exact movesOf_other hne
    | killed _ hvictim _ hq =>
      refine (hlog.log rfl).announced_other ?_ hq rfl ?_ ?_ rfl
      · exact (hrlog.of_quiet (.log _ _)).erase _
      · rw [World.session?_erase, if_neg ObjectRef.noConfusion]
      · rw [World.info?_erase, if_neg ObjectRef.noConfusion]

/-- **The packet of the session is handled as in the exchange.** -/
theorem Moved.views (hm : Moved pkt w w') (hr : Registry w) (hv : x.Views s id n w)
    (hid : pkt.info.objectid = id) {rest : List CMove} :
    (x.handleCMove pkt rest).Views s id n w' := by
  have hself : w.room.findObject pkt.info.objectid = some (.player id) := by
    rw [hid]
    exact hr.findObject (GameRoom.registered_of_info? hv.info)
  cases hm with
  | absent hnone => cases hnone.symm.trans hself
  | @moved _ _ w₁ _ hfind hprev hattack _ hq =>
    obtain rfl := Option.some.inj (hself.symm.trans hfind)
    obtain rfl := Option.some.inj (hv.info.symm.trans hprev)
    -- the info is set, and the messages are still the same
    have hset : ({ x with info := moveInfo pkt x.info } : Exchange).Views s id n
        (w.modifyInfo (.player id) (moveInfo pkt)) := by
      refine ⟨?_, ?_, hv.down⟩
      · rw [World.info?_modifyInfo_of_info? hv.info, if_pos rfl]
      · rw [World.session?_modifyInfo]
        exact hv.session
    have hfought := hattack.views hr.moveInfo hset
    have hregistry := hattack.edits.registry hr.moveInfo
    rw [hfought.info, Option.getD_some] at hq
    have hmoves : movesOf id [.sMove (moveInfo pkt x.info)] = [moveInfo pkt x.info] :=
      movesOf_self (hregistry.objectid hfought.info)
    refine hfought.announced hregistry hq rfl rfl hfought.info ?_
    rw [hmoves]
    rfl

theorem Moved.views_other (hm : Moved pkt w w') (hr : Registry w) (hv : x.Views s id n w)
    (hid : pkt.info.objectid ≠ id) : x.Views s id n w' := by
  cases hm with
  | absent => exact hv
  | @moved ref prev w₁ _ hfind hprev hattack _ hq =>
    have hother : ref ≠ .player id := by
      rintro rfl
      exact hid (GameRoom.findObject_eq_some hfind).1.symm
    have hset : x.Views s id n (w.modifyInfo ref (moveInfo pkt)) := by
      refine hv.congr ?_ (World.session?_modifyInfo id) rfl
      rw [World.info?_modifyInfo, if_neg (Ne.symm hother)]
    have hfought := hattack.views hr.moveInfo hset
    have hregistry := hattack.edits.registry hr.moveInfo
    obtain ⟨info, hinfo⟩ : ∃ info, w₁.room.info? ref = some info := by
      rw [hattack.info?_self hr.moveInfo, World.info?_modifyInfo_of_info? hprev, if_pos rfl]
      exact ⟨_, rfl⟩
    rw [hinfo, Option.getD_some] at hq
    have hne : info.objectid ≠ id := hregistry.id_ne hinfo hfought.present hother
    exact hfought.announced_other hregistry hq rfl rfl rfl (movesOf_other hne)

/-! ## Every step of the server -/

theorem movesOf_of_forall {evs : List Event} (h : ∀ t info, .send t (.sMove info) ∉ evs) :
    movesOf id (sentTo s evs) = [] := by
  rw [movesOf, List.filterMap_eq_nil_iff]
  intro msg hmsg
  obtain ⟨e, he, hpacket⟩ := List.mem_filterMap.1 hmsg
  cases e with
  | send t pkt =>
    cases msg with
    | sMove info =>
      simp only [Event.packetTo] at hpacket
      split at hpacket
      · cases hpacket
        exact absurd he (h t info)
      · cases hpacket
    | _ => rfl
  | _ => cases hpacket

theorem Connected.views {t : SessionId} (hc : Connected t w w') (hr : Registry w)
    (hv : x.Views s id n w) : x.Views s id n w' := by
  have hroom := hc.room
  have hlt := hr.lt_idGenerator (GameRoom.registered_player.2 hv.present)
  have hne : id ≠ w.idGenerator := hlt.ne
  refine hv.congr ?_ ?_ ?_
  · rw [hroom, GameRoom.info?_addPlayer, if_neg]
    exact fun heq => hne (ObjectRef.player.inj heq)
  · rw [hroom, GameRoom.session?_addPlayer]
    exact if_neg hne
  · obtain ⟨evs, htrace, hnone⟩ :
        ∃ evs, w'.trace = w.trace ++ evs ∧ ∀ t' info, .send t' (.sMove info) ∉ evs := by
      obtain ⟨hsend, henter⟩ := hc
      have htrace := henter.trace_eq
      rw [hsend.trace, World.trace_setSession, List.append_assoc] at htrace
      refine ⟨_, htrace, fun t' info hmem => ?_⟩
      simp [GameRoom.announce] at hmem
    rw [htrace, sentTo_append, movesOf_append, movesOf_of_forall hnone, List.append_nil]

/-- The player of a session that has just connected. -/
theorem Connected.views_start (hc : Connected s w w') : (Exchange.start w.idGenerator s).Views s
    w.idGenerator (movesOf w.idGenerator (sentTo s w'.trace)).length w' := by
  have hroom := hc.room
  refine ⟨?_, ?_, _, rfl, (List.append_nil _).symm⟩
  · rw [hroom, GameRoom.info?_addPlayer]
    exact if_pos rfl
  · rw [hroom, GameRoom.session?_addPlayer]
    exact if_pos rfl

/-- **What the server does is what the server of the exchange can do**, as long as the player is in
the room: in a step that is not about the packets of the player the server sends by itself. -/
theorem ServerStep.views {ev : ServerEvent} (hs : ServerStep P w ev w') (hr : Registry w)
    (hv : x.Views s id n w) (hother : ¬ Names id ev) (hstay : id ∈ w'.room.players) :
    ∃ x', Reaches Exchange.Step Exchange.Speaks x x' ∧ x'.Views s id n w' := by
  rcases hs.change hr with
    ⟨w₁, w₂, hbefore, hedits, hafter⟩ | ⟨t, -, -, hc⟩ | ⟨t, pkt, rfl, rfl | hm⟩
  · rw [hafter.room] at hstay
    obtain ⟨x', hrun, hv'⟩ := hedits.views (hr.of_still hbefore) (hv.of_still hbefore) hstay
    exact ⟨x', hrun, hv'.of_still hafter⟩
  · exact ⟨x, .refl x, hc.views hr hv⟩
  · exact ⟨x, .refl x, hv⟩
  · exact ⟨x, .refl x, hm.views_other hr hv hother⟩

/-- The packet of the session about the player is handled. -/
theorem ServerStep.views_receiveCMove (hs : ServerStep P w (.receiveCMove s pkt) w')
    (hr : Registry w) (hv : x.Views s id n w) (hnames : pkt.info.objectid = id)
    (hroom : (w.sessions s).gameRoom = true) {rest : List CMove} :
    (x.handleCMove pkt rest).Views s id n w' := by
  cases hs with
  | receiveCMove hok =>
    rw [Server.receiveCMove, if_pos hroom] at hok
    exact (handleCMove_ok hr hok).views hr hv hnames

/-! ## One client and the whole server -/

/-- The client's own player, its packets under way, the server, how many `S_Move`s about the player
the client has handled since it made it, and the weapon that the user selected last. -/
structure Traffic where
  myPlayer : Client.GameObject
  up : List CMove := []
  world : World
  handled : ℕ
  selected : Client.WeaponType := .sword

namespace Traffic

variable {t t' : Traffic} {ev : Exchange.Event}

/-- What can happen. -/
inductive Event
  | tick (frame : Client.Frame)
  | sMove
  | damaged (attacker : Client.GameObject)
  | deliver
  | server (ev : ServerEvent)

/-- The exchange that client and server are parties to. -/
def exchange (s : SessionId) (id : ObjectId) (t : Traffic) : Exchange where
  myPlayer := t.myPlayer
  up := t.up
  info := (t.world.room.info? (.player id)).getD {}
  down := (movesOf id (sentTo s t.world.trace)).drop t.handled
  selected := t.selected

/-- One tick of the client: the player ticks and may send a packet. -/
def tick (t : Traffic) (frame : Client.Frame) : Traffic :=
  { t with
    myPlayer := t.myPlayer.tick frame
    up := t.up ++ (t.myPlayer.tick frame).syncToServer.toList
    selected := (t.myPlayer.selects frame).getD t.selected }

/-- The steps, as long as the player is in the room: the client ticks, handles the oldest `S_Move`
for its player, or lets it be hit; the server handles the oldest packet under way, or does something
else. -/
inductive Step (P : Platform) (s : SessionId) (id : ObjectId) : Traffic → Event → Traffic → Prop
  | tick {t : Traffic} {frame : Client.Frame} : Step P s id t (.tick frame) (t.tick frame)
  | sMove {t : Traffic} {info : ObjectInfo} {rest : List ObjectInfo}
      (hdown : (t.exchange s id).down = info :: rest) : Step P s id t .sMove
        { t with
          myPlayer := Client.SceneManager.movedObject true info t.myPlayer
          handled := t.handled + 1 }
  | damaged {t : Traffic} {attacker : Client.GameObject} : Step P s id t (.damaged attacker)
      { t with myPlayer := (t.myPlayer.onDamaged attacker).1 }
  | deliver {t : Traffic} {pkt : CMove} {rest : List CMove} {w' : World} (hup : t.up = pkt :: rest)
      (hstep : ServerStep P t.world (.receiveCMove s pkt) w') :
      Step P s id t .deliver { t with up := rest, world := w' }
  | server {t : Traffic} {ev : ServerEvent} {w' : World} (hother : ¬ Names id ev)
      (hstep : ServerStep P t.world ev w') (hstay : id ∈ w'.room.players) :
      Step P s id t (.server ev) { t with world := w' }

/-- The session has just connected to a server that has run before, and its client has made its
player of what it was sent. -/
structure Starts (P : Platform) (tilemap : Tilemap) (s : SessionId) (id : ObjectId) (t : Traffic) :
    Prop where
  connects : ∃ w, ServerReachable P tilemap w ∧ w.idGenerator = id ∧
    ServerStep P w (.processConnect s) t.world
  myPlayer : t.myPlayer = Client.ownPlayer (enteringPlayer id s).info
  up : t.up = []
  handled : t.handled = (movesOf id (sentTo s t.world.trace)).length
  selected : t.selected = .sword

/-- The condition on a frame (`Exchange.Holds`). -/
def Holds (s : SessionId) (id : ObjectId) (t : Traffic) : Event → Prop
  | .tick frame => (t.exchange s id).Holds (.tick frame)
  | _ => True

/-- What every step keeps. -/
structure Tied (s : SessionId) (id : ObjectId) (t : Traffic) : Prop where
  registry : Registry t.world
  gameRoom : (t.world.sessions s).gameRoom = true
  objectid : t.myPlayer.info.objectid = id
  names : ∀ pkt ∈ t.up, pkt.info.objectid = id
  views : (t.exchange s id).Views s id t.handled t.world

end Traffic

/-! ## The exchange follows -/

namespace Exchange

/-- What the server sends by itself changes nothing on the client. -/
theorem client_of_speaks (h : Reaches Step Speaks x y) :
    Reaches Step Holds x y ∧ y.myPlayer = x.myPlayer ∧ y.up = x.up ∧ y.selected = x.selected := by
  have hholds : ∀ x ev, Speaks x ev → x.Holds ev := by
    rintro x ev (⟨hp, rfl⟩ | rfl) <;> trivial
  refine ⟨h.mono hholds, h.invariant (I := fun y => y.myPlayer = x.myPlayer ∧ y.up = x.up ∧
    y.selected = x.selected) ?_ ⟨rfl, rfl, rfl⟩⟩
  rintro y₁ ev y₂ hsame (⟨hp, rfl⟩ | rfl) hs
  · cases hs
    exact hsame
  · cases hs
    exact hsame

/-- A view of the server together with the client is the exchange. -/
theorem Views.eq_exchange {t : Traffic} (h : x.Views s id t.handled t.world)
    (hmy : x.myPlayer = t.myPlayer) (hup : x.up = t.up) (hselected : x.selected = t.selected) :
    x = t.exchange s id := by
  obtain ⟨old, hlen, hdown⟩ := h.down
  have hinfo : (t.world.room.info? (.player id)).getD {} = x.info := by rw [h.info]; rfl
  have hrest : (movesOf id (sentTo s t.world.trace)).drop t.handled = x.down := by
    rw [hdown, ← hlen, List.drop_left]
  rw [Traffic.exchange, hinfo, hrest, ← hmy, ← hup, ← hselected]

end Exchange

namespace Traffic

variable {t t' : Traffic} {ev : Event} {P : Platform} {tilemap : Tilemap}

theorem Tied.tick (h : Tied s id t) (frame : Client.Frame) : Tied s id (t.tick frame) := by
  have hid : (t.tick frame).myPlayer.info.objectid = id :=
    (Client.GameObject.objectid_tick t.myPlayer frame).trans h.objectid
  refine ⟨h.registry, h.gameRoom, hid, fun pkt hpkt => ?_, h.views.1, h.views.2, h.views.3⟩
  rcases List.mem_append.1 hpkt with hpkt | hpkt
  · exact h.names pkt hpkt
  · rw [Client.GameObject.info_of_syncToServer (Option.mem_toList.1 hpkt)]
    exact hid

/-- The client changes its player. -/
theorem Tied.setPlayer (h : Tied s id t) {o : Client.GameObject}
    (hid : o.info.objectid = t.myPlayer.info.objectid) : Tied s id { t with myPlayer := o } :=
  ⟨h.registry, h.gameRoom, hid.trans h.objectid, h.names, h.views.1, h.views.2, h.views.3⟩

theorem Tied.sMove (h : Tied s id t) {info : ObjectInfo} {rest : List ObjectInfo}
    (hdown : (t.exchange s id).down = info :: rest) :
    Tied s id { t with handled := t.handled + 1 } ∧
      (movesOf id (sentTo s t.world.trace)).drop (t.handled + 1) = rest := by
  obtain ⟨old, hlen, hmoves⟩ := h.views.down
  rw [hdown] at hmoves
  have hrest : (movesOf id (sentTo s t.world.trace)).drop (t.handled + 1) = rest := by
    rw [hmoves, List.append_cons, ← hlen]
    exact List.drop_left' (by simp)
  refine ⟨⟨h.registry, h.gameRoom, h.objectid, h.names, h.views.1, h.views.2, old ++ [info], ?_, ?_⟩,
    hrest⟩
  · rw [List.length_append, hlen, List.length_singleton]
  · show _ = _ ++ (movesOf id (sentTo s t.world.trace)).drop (t.handled + 1)
    rw [hrest, hmoves, List.append_cons]

theorem Tied.deliver (h : Tied s id t) {rest : List CMove} (hup : t.up = pkt :: rest)
    (hstep : ServerStep P t.world (.receiveCMove s pkt) w') :
    Tied s id { t with up := rest, world := w' } ∧
      (t.exchange s id).handleCMove pkt rest =
        Traffic.exchange s id { t with up := rest, world := w' } := by
  have hnames : ∀ pkt' ∈ pkt :: rest, pkt'.info.objectid = id := hup ▸ h.names
  have hviews : ((t.exchange s id).handleCMove pkt rest).Views s id t.handled w' :=
    hstep.views_receiveCMove h.registry h.views (hnames pkt List.mem_cons_self) h.gameRoom
  have heq : (t.exchange s id).handleCMove pkt rest =
      Traffic.exchange s id { t with up := rest, world := w' } := hviews.eq_exchange rfl rfl rfl
  refine ⟨⟨hstep.registry h.registry, hstep.gameRoom h.registry h.gameRoom, h.objectid,
    fun pkt' hpkt => hnames pkt' (List.mem_cons_of_mem _ hpkt), ?_⟩, heq⟩
  rw [← heq]
  exact hviews

/-- **Every step is a run of the exchange**, under the same condition. -/
theorem Step.exchange (hs : Step P s id t ev t') (h : Tied s id t) (hholds : Holds s id t ev) :
    Tied s id t' ∧
      Reaches Exchange.Step Exchange.Holds (t.exchange s id) (t'.exchange s id) := by
  cases hs with
  | @tick frame =>
    exact ⟨h.tick frame, .single (e := Exchange.Event.tick frame) hholds .tick⟩
  | @sMove info rest hdown =>
    obtain ⟨htied, hrest⟩ := h.sMove hdown
    refine ⟨htied.setPlayer (Client.SceneManager.objectid_movedObject _ _ _), ?_⟩
    have hafter : Traffic.exchange s id { t with
        myPlayer := Client.SceneManager.movedObject true info t.myPlayer
        handled := t.handled + 1 } = (t.exchange s id).handleSMove info rest := by
      rw [Traffic.exchange, hrest]
      rfl
    rw [hafter]
    exact .single (e := Exchange.Event.sMove) trivial (.sMove hdown)
  | damaged =>
    exact ⟨h.setPlayer (Client.GameObject.objectid_onDamaged _ _),
      .single (e := Exchange.Event.damaged _) trivial .damaged⟩
  | @deliver pkt rest w' hup hstep =>
    obtain ⟨htied, heq⟩ := h.deliver hup hstep
    rw [← heq]
    exact ⟨htied, .single (e := Exchange.Event.cMove) trivial (.cMove hup)⟩
  | @server ev w' hother hstep hstay =>
    obtain ⟨x, hspeaks, hviews⟩ := hstep.views h.registry h.views hother hstay
    obtain ⟨hrun, hmy, hup, hselected⟩ := Exchange.client_of_speaks hspeaks
    obtain rfl : x = Traffic.exchange s id { t with world := w' } :=
      hviews.eq_exchange hmy hup hselected
    exact ⟨⟨hstep.registry h.registry, hstep.gameRoom h.registry h.gameRoom, h.objectid, h.names,
      hviews⟩, hrun⟩

theorem Starts.tied (h : t.Starts P tilemap s id) :
    Tied s id t ∧ t.exchange s id = Exchange.start id s := by
  obtain ⟨w, hw, rfl, hstep⟩ := h.connects
  have hr : Registry w := registry_of_serverRun hw (registry_init tilemap)
  have hregistry : Registry t.world := hstep.registry hr
  cases hstep with
  | processConnect hnew hok =>
    have hc := processConnect_ok hr (congrArg GameSession.player hnew) hok
    have hviews := hc.views_start
    rw [← h.handled] at hviews
    have hstart : Exchange.start w.idGenerator s = t.exchange s w.idGenerator :=
      hviews.eq_exchange h.myPlayer.symm h.up.symm h.selected.symm
    refine ⟨⟨hregistry, hc.self.2, by rw [h.myPlayer]; rfl, ?_, ?_⟩, hstart.symm⟩
    · rw [h.up]
      exact fun _ hpkt => absurd hpkt List.not_mem_nil
    · rw [← hstart]
      exact hviews

/-- **Every run of a client and the whole server** is one of the exchange. -/
theorem exchange_of_run {t₀ : Traffic} (hstart : t₀.Starts P tilemap s id)
    (h : Reaches (Step P s id) (Holds s id) t₀ t) :
    Reaches Exchange.Step Exchange.Holds (Exchange.start id s) (t.exchange s id) := by
  obtain ⟨htied, hfirst⟩ := hstart.tied
  have hall := h.invariant (I := fun t => Tied s id t ∧
    Reaches Exchange.Step Exchange.Holds (Exchange.start id s) (t.exchange s id)) ?_
    ⟨htied, hfirst ▸ .refl _⟩
  · exact hall.2
  · rintro t₁ ev t₂ ⟨htied, hrun⟩ hholds hs
    obtain ⟨htied', hrun'⟩ := hs.exchange htied hholds
    exact ⟨htied', hrun.trans hrun'⟩

/-- **No weapon switch is lost on the whole server** under the condition of the exchange, whatever
the others in the room do: once nothing about the player is under way, both sides have the weapon
that was selected last. -/
theorem weapons_of_serverRun {t₀ : Traffic} (hstart : t₀.Starts P tilemap s id)
    (h : Reaches (Step P s id) (Holds s id) t₀ t) (hquiet : (t.exchange s id).Quiet) :
    (t.exchange s id).Agrees := by
  obtain ⟨e, htracks, hsent⟩ := Exchange.exists_tracks (exchange_of_run hstart h)
  exact (htracks.agree hquiet).2 hsent

/-! ## A switch -/

/-- The first client. -/
def first : Traffic where
  myPlayer := Client.ownPlayer (enteringPlayer 2 0).info
  world := afterConnect .accepted
  handled := 0

/-- It has selected the bow. -/
def pressed : Traffic := first.tick Exchange.press2

/-- The server after it has handled the packet of that frame. -/
def servedWorld : World :=
  Result.world (receiveCMove (.always .accepted) 0 ⟨pressed.myPlayer.info⟩ first.world)

/-- The answer has arrived. -/
def answered : Traffic where
  myPlayer := Client.SceneManager.movedObject true
    (moveInfo ⟨pressed.myPlayer.info⟩ (enteringPlayer 2 0).info) pressed.myPlayer
  world := servedWorld
  handled := 1
  selected := .bow

theorem weapons_of_serverRun_answered : (answered.exchange 0 2).Agrees := by
  have hstart : first.Starts (.always .accepted) {} 0 2 :=
    ⟨⟨World.init {}, .refl _, rfl, .processConnect rfl rfl⟩, rfl, rfl, by decide, rfl⟩
  have htick : Reaches (Step (.always .accepted) 0 2) (Holds 0 2) first pressed :=
    .single (e := .tick Exchange.press2) (.inl (by decide)) .tick
  have hstep : ServerStep (.always .accepted) pressed.world
      (.receiveCMove 0 ⟨pressed.myPlayer.info⟩) servedWorld := .receiveCMove rfl
  have hdeliver : Step (.always .accepted) 0 2 pressed .deliver
      { pressed with up := [], world := servedWorld } := .deliver rfl hstep
  have hsMove : Step (.always .accepted) 0 2 { pressed with up := [], world := servedWorld } .sMove
      answered := .sMove rfl
  have hserved := htick.tail (show Holds 0 2 pressed .deliver from trivial) hdeliver
  have hrun := hserved.tail (show Holds 0 2 _ .sMove from trivial) hsMove
  exact weapons_of_serverRun hstart hrun ⟨rfl, by decide⟩

end Traffic

end Zelda.Server
