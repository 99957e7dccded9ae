import Zelda.Directions

/-!
# Replicas of the room

A client handles what it is sent as long as no handler reads a flipbook out of bounds (`clientOf?`).
Then it mirrors the room (`Zelda.Replication`). Directions come from packets, and the room stores
them as they are, so whether clients get that far is a matter of the packets (`Zelda.Directions`).

Main result: `replicas_agree`. As long as the packets that name an object carry one of the four
directions, the client of every player in the room is a replica of it. A packet that does not puts
an end to the clients of all other players, if they draw the object.
-/

namespace Zelda.Server

open Protocol Std Client

variable {P : Platform} {w w' : World} {s : SessionId} {pid : ObjectId} {ref : ObjectRef}
  {pkt : CMove} {tilemap : Tilemap}

/-! ## Clients -/

/-- The client of a session after it has handled every packet that was sent to it, if it is not
undefined what that does. -/
def clientOf? (w : World) (s : SessionId) : Option SceneManager :=
  ({} : SceneManager).replay? (sentTo s w.trace)

/-- A client that has one object for every registered object, and each of them but its own player
shows the info of the registered object. -/
structure IsReplica (m : SceneManager) (w : World) (pid : ObjectId) : Prop where
  nodup : m.scene.ids.Nodup
  mem_ids : ∀ id, id ∈ m.scene.ids ↔ id ∈ w.room.players ∨ id ∈ w.room.monsters
  shows : ∀ o, .gameObject o ∈ m.scene.objects → o.info.objectid ≠ pid →
    ∃ ref info, w.room.info? ref = some info ∧ Shows o info

/-- The client of the session of a player is a replica of the room. -/
def Replicates (w : World) (s : SessionId) (pid : ObjectId) : Prop :=
  ∃ m, clientOf? w s = some m ∧ IsReplica m w pid

theorem clientOf_of_clientOf? {m : SceneManager} (h : clientOf? w s = some m) :
    m = clientOf w s := SceneManager.eq_replay_of_replay? h

theorem World.Directed.clientOf? (h : w.Directed) (s : SessionId) :
    Server.clientOf? w s = some (clientOf w s) :=
  SceneManager.directed_init.replay?_eq fun _ hmem => h.sends (mem_sentTo hmem)

/-- A client that mirrors the room is a replica. -/
theorem Synced.isReplica (h : Synced w) (hids : w.idGenerator ≤ 2 ^ 31)
    (hs : w.room.session? pid = some s) : IsReplica (clientOf w s) w pid := by
  have hmirrors := h.replicated hids s pid hs
  refine ⟨hmirrors.nodup, fun id => ?_, fun o ho hne => ?_⟩
  · rw [hmirrors.mem_ids, Registry.isSome_view]
  · have hget := DevScene.getObject_of_mem hmirrors.nodup ho
    obtain ⟨info, hview⟩ := Option.isSome_iff_exists.1
      ((hmirrors.mem_ids _).1 (DevScene.mem_ids_of_mem ho))
    obtain ⟨ref, -, hi⟩ := GameRoom.exists_ref_of_view hview
    exact ⟨ref, info, hi, (hmirrors.shows hview hne hget).2 not_false⟩

/-! ## Directions in the room -/

/-- A packet that names an object carries one of the four directions. -/
def RoomAimed (w : World) : RoomEvent → Prop
  | .handleCMove pkt => ∀ ref, w.room.findObject pkt.info.objectid = some ref → IsDir pkt.info.dir
  | _ => True

def RoomEvent.inRange : RoomEvent → Bool
  | .handleCMove pkt => IsDir pkt.info.dir
  | _ => true

theorem RoomEvent.roomAimed_of_inRange {ev : RoomEvent} (h : ev.inRange = true) (w : World) :
    RoomAimed w ev := by
  cases ev with
  | handleCMove pkt => exact fun _ _ => of_decide_eq_true h
  | enterRoom | leaveRoom | update => trivial

/-- A schedule whose packets all carry one of the four directions. -/
theorem roomAimed_acts {w : World} {es : List RoomEvent}
    (h : Reaches.follows (fun w ev => (ev.next? w).isSome && ev.inRange) RoomEvent.act w es) :
    Reaches (RoomStep (.always .accepted)) RoomAimed w (es.foldl RoomEvent.act w) := by
  refine Reaches.of_follows (fun w ev hev => ?_) h
  obtain ⟨hpossible, hdir⟩ := Bool.and_eq_true_iff.1 hev
  exact ⟨ev.roomAimed_of_inRange hdir w, roomStep_act hpossible⟩

theorem RoomStep.directed {ev : RoomEvent} (hs : RoomStep P w ev w') (hr : Registry w)
    (h : w.Directed) (haimed : RoomAimed w ev) : w'.Directed := by
  cases hs with
  | enterRoom hnew hok => exact (enterRoom_ok hr hnew hok).directed h
  | leaveRoom hok => exact (leaveRoom_edits hr hok).directed h
  | handleCMove hok => exact ((handleCMove_ok hr hok).directed_iff hr h).2 haimed
  | update hok => exact (update_edits hr hok).directed h

theorem directed_opened (tilemap : Tilemap) : (World.opened tilemap).Directed :=
  (directed_init tilemap).of_still (still_opened tilemap) fun _ _ hmem =>
    absurd hmem List.not_mem_nil

theorem aimed_of_run (h : Reaches (RoomStep P) RoomAimed (World.opened tilemap) w) :
    Synced w ∧ w.Directed := by
  refine h.invariant (I := fun w => Synced w ∧ w.Directed) ?_
    ⟨synced_opened tilemap, directed_opened tilemap⟩
  rintro w₁ ev w₂ ⟨hsynced, hdir⟩ haimed hs
  exact ⟨hs.synced hsynced, hs.directed hsynced.registry hdir haimed⟩

/-! ## A direction out of range -/

/-- The packet makes every client that has the object draw it: monsters are drawn in every state,
players in three. -/
def Drawn (ref : ObjectRef) (pkt : CMove) : Prop :=
  ref.objecttype = objectTypeMonster ∨ pkt.info.state = idle ∨ pkt.info.state = move ∨
    pkt.info.state = skill

/-- The other clients draw the object, and read out of bounds. -/
theorem Moved.clientOf?_eq_none (hm : Moved pkt w w') (h : Synced w) (hids : w.idGenerator ≤ 2 ^ 31)
    (hfind : w.room.findObject pkt.info.objectid = some ref) (hdrawn : Drawn ref pkt)
    (hdir : ¬ IsDir pkt.info.dir) (hs : w'.room.session? pid = some s) (hne : pid ≠ ref.id) :
    clientOf? w' s = none := by
  have hr := h.registry
  have hready := hm.ready h.toReady
  have hmirrors := hm.replicated h.toReady hids (h.replicated hids) s pid hs
  cases hm with
  | absent hnone => cases hnone.symm.trans hfind
  | @moved ref' prev w₁ _ hfind' hprev hattack _ hq =>
    obtain rfl := Option.some.inj (hfind.symm.trans hfind')
    have hnow : w₁.room.info? ref = some (moveInfo pkt prev) := by
      rw [hattack.info?_self hr.moveInfo, World.info?_modifyInfo_of_info? hprev, if_pos rfl]
    rw [hnow, Option.getD_some] at hq
    set info := moveInfo pkt prev with hinfo
    have hr₁ : Registry w₁ := hattack.edits.registry hr.moveInfo
    have hid : info.objectid = ref.id := hr₁.objectid hnow
    have hnow' : w'.room.info? ref = some info := by rw [hq.room, hnow]
    have hsent : sentTo s w'.trace = sentTo s w₁.trace ++ [.sMove info] := by
      have hmem : s ∈ w₁.room.audience := GameRoom.mem_audience.2 ⟨pid, hq.room ▸ hs⟩
      rw [hq.trace, sentTo_append, sentTo_announce hr₁.toLinked.nodup_audience, if_pos hmem]
    rw [clientOf?, hsent, SceneManager.replay?_append]
    cases hbefore : ({} : SceneManager).replay? (sentTo s w₁.trace) with
    | none => rfl
    | some m =>
      obtain rfl : m = clientOf w₁ s := SceneManager.eq_replay_of_replay? hbefore
      have hafter : clientOf w' s = (clientOf w₁ s).handlePacket (.sMove info) :=
        clientOf_of_announce hq rfl hr₁.toLinked.nodup_audience (hq.room ▸ hs)
      obtain ⟨o, ho, hkind⟩ := Mirrors.exists_getObject_of_handleSMove (hafter ▸ hmirrors)
        (hready.registry.view_of_info? hnow') hid hne.symm
      have hown : (clientOf w₁ s).getMyPlayerId ≠ info.objectid := by
        have hsame : (clientOf w' s).getMyPlayerId = (clientOf w₁ s).getMyPlayerId := by
          rw [hafter]
          exact SceneManager.getMyPlayerId_handleSMove _ info
        rw [← hsame, hmirrors.getMyPlayerId, hid]
        exact hne
      have hdrawn' : o.kind.isPlayer = false ∨ info.state = idle ∨ info.state = move ∨
          info.state = skill := by
        rw [hinfo, moveInfo_state]
        refine hdrawn.imp_left fun htype => ?_
        rw [Bool.eq_false_iff, Ne, hkind, hr₁.objecttype hnow, htype]
        decide
      obtain ⟨a, ha, hread⟩ :=
        SceneManager.exists_mem_reads_sMove (hid.symm ▸ ho) hown hdrawn'
      refine (Option.bind_some _ _).trans ?_
      refine congrArg (Option.bind · _) (SceneManager.handlePacket?_eq_none ha ?_)
      rw [hread, hinfo, moveInfo_dir]
      exact hdir

/-! ## Every run -/

/-- **Replicas agree with the room as long as directions are in range.** In every run of the room
with accepted sends, less than `2 ^ 31` ids and one of the four directions in every packet that
names an object, the client of every session whose player is in the room is a replica. A packet with
another direction, which makes others draw the object it names, leaves the clients of all other
players undefined. -/
theorem replicas_agree {pq : PriorityQueue PQNode PQNode.cost}
    (h : Reaches (RoomStep (.accepting pq)) RoomAimed (World.opened tilemap) w)
    (hids : w.idGenerator ≤ 2 ^ 31) :
    (∀ s pid, w.room.session? pid = some s → Replicates w s pid) ∧
    ∀ pkt ref w', RoomStep (.accepting pq) w (.handleCMove pkt) w' →
      w.room.findObject pkt.info.objectid = some ref → Drawn ref pkt → ¬ IsDir pkt.info.dir →
      ∀ s pid, w'.room.session? pid = some s → pid ≠ ref.id → ¬ Replicates w' s pid := by
  obtain ⟨hsynced, hdir⟩ := aimed_of_run h
  refine ⟨fun s pid hs => ⟨_, hdir.clientOf? s, hsynced.isReplica hids hs⟩, ?_⟩
  rintro pkt ref w' hstep hfind hdrawn hnot s pid hs hne ⟨m, hm, -⟩
  cases hstep with
  | handleCMove hok =>
    have hmoved := handleCMove_ok hsynced.registry hok
    cases hm.symm.trans (hmoved.clientOf?_eq_none hsynced hids hfind hdrawn hnot hs hne)

/-- Two players enter, and the first one turns where there is no direction. -/
def derailed : World :=
  [.enterRoom 0, .enterRoom 1, .handleCMove turnNowhere].foldl RoomEvent.act (World.opened {})

/-- The client of the second player reads the fifth of four flipbooks. -/
theorem not_replicas_agree_derailed :
    ¬ ∀ (pq : PriorityQueue PQNode PQNode.cost) (tilemap : Tilemap) (w : World) (s : SessionId)
      (pid : ObjectId),
      Reaches (RoomStep (.accepting pq)) (fun _ _ => True) (World.opened tilemap) w →
      w.idGenerator ≤ 2 ^ 31 → w.room.session? pid = some s → Replicates w s pid := by
  intro hall
  have hrun : Reaches (RoomStep (.always .accepted)) (fun _ _ => True) (World.opened {}) derailed :=
    roomRun_acts (by decide +kernel)
  obtain ⟨m, hm, -⟩ := hall (.selection PQNode.cost) {} derailed 1 3 hrun (by decide +kernel)
    (by decide +kernel)
  have hnone : (clientOf? derailed 1).isNone = true := by decide +kernel
  rw [hm] at hnone
  cases hnone

/-- Two players enter, and the first one strikes the monster down, in four blows. -/
def conquered : World := (assault ++ victory).foldl RoomEvent.act (World.opened {})

theorem aimed_conquered : Reaches (RoomStep (.accepting (.selection PQNode.cost))) RoomAimed
    (World.opened {}) conquered := roomAimed_acts (by decide +kernel)

/-- The client of the second player has seen the monster come and go. -/
theorem replicas_agree_conquered : ∃ m, clientOf? conquered 1 = some m ∧ 1 ∉ m.scene.ids ∧
    2 ∉ m.scene.ids ∧ 3 ∈ m.scene.ids := by
  have hplayer : conquered.room.session? 3 = some 1 := by decide +kernel
  obtain ⟨m, hm, hreplica⟩ := (replicas_agree aimed_conquered (by decide +kernel)).1 1 3 hplayer
  refine ⟨m, hm, ?_, ?_, (hreplica.mem_ids 3).2 (.inl (by decide +kernel))⟩
  · rw [hreplica.mem_ids]
    decide +kernel
  · rw [hreplica.mem_ids]
    decide +kernel

end Zelda.Server
