import Zelda.Server.Runs

/-!
# Deeds

A coarser look at what the operations do than `Server/Edits`, which keeps more: a hit is a single
deed, with what it records and what it takes (`Deed.hit`), the one object that leaves by itself is a
player (`Deed.leave`), and a monster changes nothing of its info but its pose (`Reposed`). What is
counted over whole runs is counted deed by deed.

* `update_deeds`: the update of the room is deeds.
* `Moved.deeds`: a packet sets the info of an object, and what follows is deeds.
* `ServerStep.deeds`, `RoomStep.deeds`: a step is deeds, a packet or an entry.
* `Upheld.serverRun`, `Upheld.roomRun`: what deeds, packets and entries keep holds after every run.
-/

namespace Zelda.Server

open Protocol Std

variable {P : Platform} {w w' : World} {s : SessionId} {id : ObjectId} {ref : ObjectRef}
  {m : Monster} {info info' : ObjectInfo} {pkt : CMove} {fuel : ℕ} {now : UInt64}

/-- The state, the direction and the cell may differ, and nothing else. -/
def Reposed (info info' : ObjectInfo) : Prop :=
  info' = ((info.setState info'.state).setDir info'.dir).setCellPos info'.getCellPos

theorem Reposed.sameBody (h : Reposed info info') : SameBody info info' := by
  rw [h]
  exact ⟨rfl, rfl, rfl, rfl, rfl, rfl⟩

theorem Reposed.name (h : Reposed info info') : info'.name = info.name := by
  rw [h]
  rfl

/-- What happens between two packets and entries. -/
inductive Deed : World → World → Prop
  /-- A skill is recorded. -/
  | skill (w : World) (id : ObjectId) : Deed w (w.log (.processSkill id))
  /-- An object hits another one. -/
  | hit {w w' : World} {attacker victim : ObjectRef} (hhit : Hit attacker victim w w') : Deed w w'
  /-- A player leaves the room. -/
  | leave {w w' : World} {id : ObjectId} (hreg : w.room.Registered (.player id))
      (hquiet : Quiet (w.erase (.player id)) w'
        ((w.erase (.player id)).room.announce (.sRemoveObject [id]))) : Deed w w'
  /-- A monster changes its pose, its target or its timer. -/
  | think {w : World} {id : ObjectId} {m : Monster} {f : Monster → Monster}
      (hm : w.room.monsters[id]? = some m) (hsame : Reposed m.info (f m).info) :
      Deed w (w.modifyMonster id f)
  /-- An object is announced as it is. -/
  | announce {w w' : World} {ref : ObjectRef} {info : ObjectInfo}
      (hinfo : w.room.info? ref = some info)
      (hquiet : Quiet w w' (w.room.announce (.sMove info))) : Deed w w'

/-- A sequence of deeds. -/
abbrev Deeds : World → World → Prop := Relation.ReflTransGen Deed

theorem Deed.registry (hd : Deed w w') (h : Registry w) : Registry w' := by
  cases hd with
  | skill => exact h.of_quiet (.log w _)
  | hit hhit => exact hhit.edits.registry h
  | leave _ hq => exact (h.erase _).of_quiet hq
  | think hm hsame => exact h.modifyMonster_body hm hsame.sameBody
  | announce _ hq => exact h.of_quiet hq

theorem Deeds.registry (hd : Deeds w w') (h : Registry w) : Registry w' := by
  induction hd with
  | refl => exact h
  | tail _ hd ih => exact hd.registry ih

theorem Deed.idGenerator (hd : Deed w w') : w'.idGenerator = w.idGenerator := by
  cases hd with
  | skill | think => rfl
  | hit hhit => exact hhit.edits.idGenerator
  | leave _ hq => exact hq.idGenerator
  | announce _ hq => exact hq.idGenerator

/-- What every deed keeps holds after all of them. -/
theorem Deeds.invariant {I : World → Prop}
    (hI : ∀ {w w'}, Registry w → I w → Deed w w' → I w') (hd : Deeds w w') (h : Registry w)
    (hw : I w) : I w' := by
  have hall : Registry w' ∧ I w' := by
    induction hd with
    | refl => exact ⟨h, hw⟩
    | tail _ hd ih => exact ⟨hd.registry ih.1, hI ih.1 ih.2 hd⟩
  exact hall.2

theorem Deeds.idGenerator (hd : Deeds w w') : w'.idGenerator = w.idGenerator := by
  induction hd with
  | refl => rfl
  | tail _ hd ih => exact hd.idGenerator.trans ih

/-! ## The update of the room -/

theorem modifyMonster_deeds (w : World) (id : ObjectId) (f : Monster → Monster)
    (hsame : ∀ m, Reposed m.info (f m).info) : Deeds w (w.modifyMonster id f) := by
  cases hm : w.room.monsters[id]? with
  | none =>
    have hnone : w.modifyMonster id f = w := by
      rw [World.modifyMonster, GameRoom.modifyMonster_of_none hm]
      rfl
    rw [hnone]
  | some m => exact .single (.think hm (hsame m))

theorem setTarget_deeds (w : World) (id : ObjectId) (target : Option ObjectId) :
    Deeds w (w.setTarget id target) := modifyMonster_deeds w id _ fun _ => rfl

theorem wait_deeds (w : World) (id : ObjectId) (now : UInt64) : Deeds w (w.wait id now) :=
  modifyMonster_deeds w id _ fun _ => rfl

theorem setDir_deeds (w : World) (id : ObjectId) (dir : Int32) :
    Deeds w (w.setDir (.monster id) dir) := modifyMonster_deeds w id _ fun _ => rfl

theorem setCellPos_deeds (w : World) (id : ObjectId) (cellPos : Vec2Int) :
    Deeds w (w.setCellPos (.monster id) cellPos) := modifyMonster_deeds w id _ fun _ => rfl

theorem broadcastMove_deeds (h : Registry w) (hok : broadcastMove P ref w = .ok w') :
    Deeds w w' := by
  unfold broadcastMove at hok
  split at hok
  · cases hok
    exact .refl
  · rename_i o ho
    split at hok
    · exact .single (.announce (GameRoom.info?_of_object? ho) (broadcast_ok h.toLinked hok))
    · cases hok
      exact .refl

theorem setState_deeds {state : Int32} {announce : Bool} (h : Registry w)
    (hok : setState P (.monster id) state announce w = .ok w') : Deeds w w' := by
  have hset : Deeds w (w.modifyInfo (.monster id) (·.setState state)) :=
    modifyMonster_deeds w id _ fun _ => rfl
  rcases setState_cases hok with rfl | rfl | hsay
  · exact .refl
  · exact hset
  · exact hset.trans (broadcastMove_deeds (hset.registry h) hsay)

theorem followPath_deeds {path : List Vec2Int} (h : Registry w)
    (hok : followPath P now id info path w = .ok w') : Deeds w w' := by
  rcases followPath_cases hok with rfl | ⟨pos, -, rfl⟩ | ⟨-, nextPos, -, -, -, hstate⟩
  · exact .refl
  · exact setCellPos_deeds w id pos
  · have hturn : Deeds w (w.setDir (.monster id) (info.getLookAtDir nextPos)) :=
      setDir_deeds w id _
    have hstep : Deeds w (((w.setDir (.monster id) (info.getLookAtDir nextPos)).setCellPos
        (.monster id) nextPos).wait id now) :=
      (hturn.trans (setCellPos_deeds _ id nextPos)).trans (wait_deeds _ id now)
    exact hstep.trans (setState_deeds (hstep.registry h) hstate)

theorem updateIdle_deeds (h : Registry w) (hok : updateIdle P fuel now id w = .ok w') :
    Deeds w w' := by
  -- choosing a target is a deed of its own
  have htarget : ∀ target, Deeds w (w.setTarget id target) := setTarget_deeds w id
  cases updateIdle_cases hok with
  | absent hw => exact hw ▸ .refl
  | @stays target hw => exact hw ▸ htarget target
  | @aims m target pid player w₂ _ _ _ hstate hw =>
    have hturn : Deeds w ((w.setTarget id target).setDir (.monster id)
        (m.info.getLookAtDir player.info.getCellPos)) :=
      (htarget target).trans (setDir_deeds _ id _)
    rw [hw]
    exact (hturn.trans (setState_deeds (hturn.registry h) hstate)).trans (wait_deeds w₂ id now)
  | @follows m target pid player path _ _ _ _ hfollow =>
    exact (htarget target).trans (followPath_deeds ((htarget target).registry h) hfollow)

theorem updateMove_deeds (h : Registry w) (hok : updateMove P now id w = .ok w') :
    Deeds w w' := by
  rcases updateMove_cases hok with rfl | ⟨-, -, -, hstate⟩
  · exact .refl
  · exact setState_deeds h hstate

theorem strike_deeds (h : Registry w) (hok : strike P id m w = .ok w') : Deeds w w' := by
  rcases strike_cases hok with (rfl | rfl) | ⟨self, targetId, -, w₁, -, -, -, hhit, rfl | rfl⟩
  · exact .refl
  · exact setTarget_deeds w id none
  · exact .single (.hit (applyDamage_ok h hhit))
  · exact .head (.hit (applyDamage_ok h hhit)) (setTarget_deeds w₁ id none)

theorem updateSkill_deeds (h : Registry w) (hok : updateSkill P now id w = .ok w') :
    Deeds w w' := by
  rcases updateSkill_cases hok with rfl | ⟨m, w₁, w₂, -, -, hstate, hstrike, hsay⟩
  · exact .refl
  · have hd₁ : Deeds w w₁ := setState_deeds h hstate
    have h₁ := hd₁.registry h
    have hd₂ : Deeds w₁ w₂ := by
      rcases hstrike with rfl | ⟨-, hstrike⟩
      · exact .refl
      · exact strike_deeds h₁ hstrike
    exact (hd₁.trans hd₂).trans (broadcastMove_deeds (hd₂.registry h₁) hsay)

theorem updateMonster_deeds (h : Registry w) (hok : updateMonster P fuel now id w = .ok w') :
    Deeds w w' := by
  rcases updateMonster_cases hok with rfl | ⟨-, -, ⟨-, hok⟩ | ⟨-, hok⟩ | ⟨-, hok⟩⟩
  · exact .refl
  · exact updateIdle_deeds h hok
  · exact updateMove_deeds h hok
  · exact updateSkill_deeds h hok

theorem updateFrom_deeds {clock : ObjectId → UInt64} {ids : List ObjectId} (h : Registry w)
    (hok : updateFrom P fuel clock ids w = .ok w') : Deeds w w' := by
  induction ids generalizing w with
  | nil =>
    cases hok
    exact .refl
  | cons id ids ih =>
    rcases updateFrom_cons_cases hok with hrest | ⟨w₁, hid, hrest⟩
    · exact ih h hrest
    · have hd := updateMonster_deeds h hid
      exact hd.trans (ih (hd.registry h) hrest)

theorem update_deeds {clock : ObjectId → UInt64} (h : Registry w)
    (hok : update P fuel clock w = .ok w') : Deeds w w' := updateFrom_deeds h hok

/-! ## Leaving -/

/-- The player of a session is no monster, so it is a player that leaves. -/
theorem Left.deeds (hl : Left s w w') (h : Registry w) : Deeds w w' := by
  cases hl with
  | noPlayer => exact .refl
  | removed hplayer hrem =>
    cases hrem with
    | absent => exact .refl
    | @erased ref _ hfind hq =>
      obtain ⟨rfl, hreg⟩ := GameRoom.findObject_eq_some hfind
      cases ref with
      | player id => exact .single (.leave hreg hq)
      | monster id =>
        exact absurd (GameRoom.registered_monster.1 hreg) (h.not_monster hplayer)

/-! ## Packets -/

theorem Attack.deeds (ha : Attack ref w w') : Deeds w w' := by
  cases ha with
  | none => exact .refl
  | missed => exact .single (.skill w _)
  | hit _ _ _ hhit => exact .head (.skill w _) (.single (.hit hhit))

/-- A packet that names nobody does nothing, and otherwise deeds follow on what it sets. -/
theorem Moved.deeds (hm : Moved pkt w w') (h : Registry w) :
    w' = w ∨ ∃ ref, Deeds (w.modifyInfo ref (moveInfo pkt)) w' := by
  cases hm with
  | absent => exact .inl rfl
  | @moved ref prev w₁ _ _ hprev hattack _ hq =>
    have hself : w₁.room.info? ref = some (moveInfo pkt prev) := by
      rw [hattack.info?_self h.moveInfo, World.info?_modifyInfo_of_info? hprev, if_pos rfl]
    rw [hself, Option.getD_some] at hq
    exact .inr ⟨ref, hattack.deeds.tail (.announce hself hq)⟩

/-! ## Steps -/

/-- Deeds, with changes of sessions before and after that no other session sees. -/
structure Done (w w' : World) : Prop where
  deeds : ∃ w₁ w₂, Still w w₁ [] ∧ Deeds w₁ w₂ ∧ Still w₂ w' []

theorem Deeds.done (hd : Deeds w w') : Done w w' := ⟨w, w', .refl w, hd, .refl w'⟩

theorem Disconnected.done (hd : Disconnected s w w') (h : Registry w) : Done w w' := by
  cases hd with
  | already => exact Deeds.done .refl
  | left _ hleft =>
    have hstill := still_setConnected w s false
    exact ⟨_, _, hstill, hleft.deeds (h.of_still hstill), .refl w'⟩

theorem Sent.done (hs : Sent s w w') (h : Registry w) : Done w w' := by
  cases hs with
  | quiet hq => exact ⟨_, _, hq.toStill, .refl, .refl w'⟩
  | disconnected hq hdis hclear =>
    obtain ⟨w₁, w₂, hbefore, hdeeds, hafter⟩ := hdis.done (h.of_quiet hq)
    exact ⟨w₁, w₂, hq.toStill.trans hbefore, hdeeds, hafter.trans hclear.toStill⟩

/-- A step of the server is deeds, an entry or a packet. -/
theorem ServerStep.deeds {ev : ServerEvent} (hs : ServerStep P w ev w') (h : Registry w) :
    Done w w' ∨
      (∃ s, ev = .processConnect s ∧ (w.sessions s).player = none ∧ Connected s w w') ∨
      ∃ s pkt, ev = .receiveCMove s pkt ∧ (w' = w ∨ Moved pkt w w') := by
  cases hs with
  | processConnect hnew hok =>
    have hp : (w.sessions _).player = none := congrArg GameSession.player hnew
    exact .inr (.inl ⟨_, rfl, hp, processConnect_ok h hp hok⟩)
  | disconnect hok => exact .inl ((disconnect_ok h.toLinked hok).done h)
  | receiveCMove hok => exact .inr (.inr ⟨_, _, rfl, receiveCMove_ok h hok⟩)
  | processSend hok => exact .inl ((processSend_ok h hok).done h)
  | update hok => exact .inl (update_deeds h hok).done

/-- A step of the room is deeds, an entry or a packet. -/
theorem RoomStep.deeds {ev : RoomEvent} (hs : RoomStep P w ev w') (h : Registry w) :
    Deeds w w' ∨
      (∃ s, ev = .enterRoom s ∧ (w.sessions s).player = none ∧ Entered s w w') ∨
      ∃ pkt, ev = .handleCMove pkt ∧ Moved pkt w w' := by
  cases hs with
  | enterRoom hnew hok => exact .inr (.inl ⟨_, rfl, hnew, enterRoom_ok h hnew hok⟩)
  | leaveRoom hok => exact .inl ((leaveRoom_ok h.toLinked hok).deeds h)
  | handleCMove hok => exact .inr (.inr ⟨_, rfl, handleCMove_ok h hok⟩)
  | update hok => exact .inl (update_deeds h hok)

/-! ## Invariants of runs -/

/-- What makes `I` an invariant of all runs in which every packet is `ok` and players enter only
rooms that are `fit`. -/
structure Upheld (fit : GameRoom → Prop) (ok : CMove → Prop) (I : World → Prop) : Prop where
  still : ∀ {w w' s evs}, evs ⊆ [.send s (.sEnterGame true 0)] → Still w w' evs → I w → I w'
  deed : ∀ {w w'}, Registry w → I w → Deed w w' → I w'
  move : ∀ {w pkt} ref, ok pkt → Registry w → I w → I (w.modifyInfo ref (moveInfo pkt))
  enter : ∀ {w w' s}, fit w.room → Registry w → (w.sessions s).player = none → I w →
    Entered s w w' → I w'

namespace Upheld

variable {fit : GameRoom → Prop} {ok : CMove → Prop} {I : World → Prop}

theorem deeds (hI : Upheld fit ok I) (hd : Deeds w w') (h : Registry w) (hw : I w) : I w' :=
  hd.invariant hI.deed h hw

theorem moved (hI : Upheld fit ok I) (hm : Moved pkt w w') (hok : ok pkt) (h : Registry w)
    (hw : I w) : I w' := by
  rcases hm.deeds h with rfl | ⟨ref, hd⟩
  · exact hw
  · exact hI.deeds hd h.moveInfo (hI.move ref hok h hw)

theorem connected (hI : Upheld fit ok I) (hc : Connected s w w') (hfit : fit w.room)
    (h : Registry w) (hs : (w.sessions s).player = none) (hw : I w) : I w' := by
  obtain ⟨hsend, henter⟩ := hc
  have hstill := still_setConnected w s true
  have h₁ := (h.of_still hstill).of_still hsend.toStill
  have hw₁ := hI.still (s := s) (List.Subset.refl _) hsend.toStill
    (hI.still (s := s) (List.nil_subset _) hstill hw)
  refine hI.enter (hsend.room ▸ hfit) h₁ ?_ hw₁ henter
  rw [hsend.player, hstill.player, hs]

theorem serverStep {ev : ServerEvent} (hI : Upheld fit ok I) (hs : ServerStep P w ev w')
    (hfit : ∀ s, ev = .processConnect s → fit w.room)
    (hok : ∀ s pkt, ev = .receiveCMove s pkt → ok pkt) (h : Registry w) (hw : I w) : I w' := by
  rcases hs.deeds h with
    ⟨w₁, w₂, hbefore, hd, hafter⟩ | ⟨s, hev, hnew, hc⟩ | ⟨s, pkt, hev, rfl | hm⟩
  · have hw₁ := hI.still (s := 0) (List.nil_subset _) hbefore hw
    have hw₂ := hI.deeds hd (h.of_still hbefore) hw₁
    exact hI.still (s := 0) (List.nil_subset _) hafter hw₂
  · exact hI.connected hc (hfit s hev) h hnew hw
  · exact hw
  · exact hI.moved hm (hok s pkt hev) h hw

theorem roomStep {ev : RoomEvent} (hI : Upheld fit ok I) (hs : RoomStep P w ev w')
    (hfit : ∀ s, ev = .enterRoom s → fit w.room)
    (hok : ∀ pkt, ev = .handleCMove pkt → ok pkt) (h : Registry w) (hw : I w) : I w' := by
  rcases hs.deeds h with hd | ⟨s, hev, hnew, he⟩ | ⟨pkt, hev, hm⟩
  · exact hI.deeds hd h hw
  · exact hI.enter (hfit s hev) h hnew hw he
  · exact hI.moved hm (hok pkt hev) h hw

/-- An invariant of the steps holds after every run of the server. -/
theorem serverRun {C : World → ServerEvent → Prop} (hI : Upheld fit ok I)
    (hfit : ∀ w s, C w (.processConnect s) → fit w.room)
    (hok : ∀ w s pkt, C w (.receiveCMove s pkt) → ok pkt)
    (hrun : Reaches (ServerStep P) C w w') (h : Registry w) (hw : I w) : I w' := by
  have hall : Registry w' ∧ I w' := by
    refine hrun.invariant (I := fun w => Registry w ∧ I w) ?_ ⟨h, hw⟩
    rintro w₁ ev w₂ ⟨h₁, hw₁⟩ hC hs
    refine ⟨hs.registry h₁, hI.serverStep hs ?_ ?_ h₁ hw₁⟩
    · rintro s rfl
      exact hfit _ s hC
    · rintro s pkt rfl
      exact hok _ s pkt hC
  exact hall.2

/-- An invariant of the steps holds after every run of the room. -/
theorem roomRun {C : World → RoomEvent → Prop} (hI : Upheld fit ok I)
    (hfit : ∀ w s, C w (.enterRoom s) → fit w.room)
    (hok : ∀ w pkt, C w (.handleCMove pkt) → ok pkt)
    (hrun : Reaches (RoomStep P) C w w') (h : Registry w) (hw : I w) : I w' := by
  have hall : Registry w' ∧ I w' := by
    refine hrun.invariant (I := fun w => Registry w ∧ I w) ?_ ⟨h, hw⟩
    rintro w₁ ev w₂ ⟨h₁, hw₁⟩ hC hs
    refine ⟨hs.registry h₁, hI.roomStep hs ?_ ?_ h₁ hw₁⟩
    · rintro s rfl
      exact hfit _ s hC
    · rintro pkt rfl
      exact hok _ pkt hC
  exact hall.2

end Upheld

end Zelda.Server
