import Zelda.Server.MonsterEdits

/-!
# What monsters do beside the players

A monster that chooses a target, turns, walks or waits leaves the players as they are and starts no
attack of a player (`Aside`); nor does its own attack (`update_calls`). How often `ProcessSkill` was
called for an object is counted in the trace (`World.calls`): a packet has it called for the player
that it names, if that begins an attack (`handleCMove_calls_self`), and for nobody else
(`handleCMove_calls_of_ne`).
-/

namespace Zelda.Server

open Protocol Std

variable {P : Platform} {w w' w'' : World} {s : SessionId} {id pid : ObjectId} {ref : ObjectRef}
  {evs : List Event}

/-! ## Calls of `ProcessSkill` -/

/-- How often `ProcessSkill` was called for the object. -/
def World.calls (w : World) (pid : ObjectId) : ℕ := w.trace.count (.processSkill pid)

theorem World.calls_of_trace (htrace : w'.trace = w.trace ++ evs)
    (hevs : Event.processSkill pid ∉ evs) : w'.calls pid = w.calls pid := by
  rw [calls, htrace, List.count_append, List.count_eq_zero.2 hevs, Nat.add_zero, calls]

/-- Messages are no calls. -/
theorem processSkill_notMem_announce {r : GameRoom} {pkt : ServerPacket} :
    Event.processSkill pid ∉ r.announce pkt := by
  intro hmem
  obtain ⟨_, -, heq⟩ := List.mem_map.1 hmem
  cases heq

theorem Quiet.calls_announce {r : GameRoom} {pkt : ServerPacket} (hq : Quiet w w' (r.announce pkt)) :
    w'.calls pid = w.calls pid :=
  World.calls_of_trace hq.trace processSkill_notMem_announce

theorem World.calls_log {e : Event} (he : e ≠ .processSkill pid) :
    (w.log e).calls pid = w.calls pid :=
  calls_of_trace rfl fun hmem => he (List.mem_singleton.1 hmem).symm

theorem World.calls_log_self : (w.log (.processSkill pid)).calls pid = w.calls pid + 1 := by
  rw [calls, World.trace_log, List.count_append, List.count_singleton_self, calls]

/-- A hit calls nothing. -/
theorem Hit.calls {attacker victim : ObjectRef} (h : Hit attacker victim w w') :
    w'.calls pid = w.calls pid := by
  have hlog : ∀ a v, (w.log (hitEvent attacker victim a v)).calls pid = w.calls pid :=
    fun a v => World.calls_log fun heq => by cases heq
  cases h with
  | missed => rfl
  | hurt _ _ _ hq => exact hq.calls_announce.trans (hlog _ _)
  | killed _ _ _ hq => exact hq.calls_announce.trans (hlog _ _)

/-! ## Steps aside -/

/-- Between `w` and `w'` no player was changed, added or taken away, and none attacked. -/
structure Aside (w w' : World) : Prop where
  players : w'.room.players = w.room.players
  calls : ∀ pid, w'.calls pid = w.calls pid

theorem Aside.refl (w : World) : Aside w w := ⟨rfl, fun _ => rfl⟩

theorem Aside.trans (h : Aside w w') (h' : Aside w' w'') : Aside w w'' where
  players := h'.players.trans h.players
  calls pid := (h'.calls pid).trans (h.calls pid)

theorem broadcastMove_aside (h : Registry w) (hok : broadcastMove P ref w = .ok w') :
    Aside w w' := by
  refine ⟨congrArg GameRoom.players (broadcastMove_room h hok), fun pid => ?_⟩
  unfold broadcastMove at hok
  split at hok
  · cases hok
    rfl
  · split at hok
    · exact (broadcast_ok h.toLinked hok).calls_announce
    · cases hok
      rfl

theorem setState_aside {state : Int32} {announce : Bool} (h : Registry w)
    (hok : setState P (.monster id) state announce w = .ok w') : Aside w w' := by
  have hset : Aside w (w.modifyInfo (.monster id) (·.setState state)) := ⟨rfl, fun _ => rfl⟩
  rcases setState_cases hok with rfl | rfl | hsay
  · exact .refl _
  · exact hset
  · have h₁ : Registry (w.modifyInfo (.monster id) (·.setState state)) :=
      h.modifyInfo fun _ => ⟨rfl, rfl⟩
    exact hset.trans (broadcastMove_aside h₁ hsay)

theorem followPath_aside {now : UInt64} {info : ObjectInfo} {path : List Vec2Int}
    (h : Registry w) (hok : followPath P now id info path w = .ok w') : Aside w w' := by
  rcases followPath_cases hok with rfl | ⟨pos, -, rfl⟩ | ⟨src, nextPos, rest, -, -, hstate⟩
  · exact .refl _
  · exact ⟨rfl, fun _ => rfl⟩
  · have haside := setState_aside (h.stepped id _ nextPos now) hstate
    exact ⟨haside.players, haside.calls⟩

theorem updateIdle_aside {fuel : ℕ} {now : UInt64} (h : Registry w)
    (hok : updateIdle P fuel now id w = .ok w') : Aside w w' := by
  have htarget : ∀ target, Aside w (w.setTarget id target) := fun _ => ⟨rfl, fun _ => rfl⟩
  cases updateIdle_cases hok with
  | absent hw => exact hw ▸ .refl _
  | @stays target hw => exact hw ▸ htarget target
  | @aims m target pid player w₂ hm hroom hlock hstate hw =>
    have hturn := (h.setTarget id target).setDir id (m.info.getLookAtDir player.info.getCellPos)
    have haside := (htarget target).trans ⟨(setState_aside hturn hstate).players,
      (setState_aside hturn hstate).calls⟩
    rw [hw]
    exact ⟨haside.players, haside.calls⟩
  | @follows m target pid player path hm hroom hlock hpath hfollow =>
    exact (htarget target).trans (followPath_aside (h.setTarget id target) hfollow)

theorem updateMove_aside {now : UInt64} (h : Registry w) (hok : updateMove P now id w = .ok w') :
    Aside w w' := by
  rcases updateMove_cases hok with rfl | ⟨-, -, -, hstate⟩
  · exact .refl _
  · exact setState_aside h hstate

/-! ## The attack of a monster -/

theorem strike_calls {m : Monster} (h : Registry w) (hok : strike P id m w = .ok w') :
    w'.calls pid = w.calls pid := by
  rcases strike_cases hok with (rfl | rfl) | ⟨self, targetId, -, w₁, -, -, -, hhit, rfl | rfl⟩
  · rfl
  · rfl
  · exact (applyDamage_ok h hhit).calls
  · exact (applyDamage_ok h hhit).calls

theorem updateSkill_calls {now : UInt64} (h : Registry w)
    (hok : updateSkill P now id w = .ok w') : w'.calls pid = w.calls pid := by
  rcases updateSkill_cases hok with rfl | ⟨m, w₁, w₂, -, -, hstate, hstrike, hsay⟩
  · rfl
  · have h₁ := (setState_silent_edits hstate).registry h
    have hcalls := (setState_aside h hstate).calls pid
    rcases hstrike with rfl | ⟨-, hstrike⟩
    · exact ((broadcastMove_aside h₁ hsay).calls pid).trans hcalls
    · have h₂ := (strike_edits h₁ hstrike).registry h₁
      exact ((broadcastMove_aside h₂ hsay).calls pid).trans ((strike_calls h₁ hstrike).trans hcalls)

theorem updateMonster_calls {fuel : ℕ} {now : UInt64} (h : Registry w)
    (hok : updateMonster P fuel now id w = .ok w') : w'.calls pid = w.calls pid := by
  rcases updateMonster_cases hok with rfl | ⟨info, -, ⟨-, hok⟩ | ⟨-, hok⟩ | ⟨-, hok⟩⟩
  · rfl
  · exact (updateIdle_aside h hok).calls pid
  · exact (updateMove_aside h hok).calls pid
  · exact updateSkill_calls h hok

/-- **No update makes a player attack.** -/
theorem update_calls {fuel : ℕ} {clock : ObjectId → UInt64} (h : Registry w)
    (hok : update P fuel clock w = .ok w') : w'.calls pid = w.calls pid := by
  have hfrom : ∀ {ids : List ObjectId} {w : World}, Registry w →
      updateFrom P fuel clock ids w = .ok w' → w'.calls pid = w.calls pid := by
    intro ids
    induction ids with
    | nil =>
      intro w _ hok
      obtain rfl := Except.ok.inj hok
      rfl
    | cons id ids ih =>
      intro w h hok
      rcases updateFrom_cons_cases hok with hrest | ⟨w₁, hid, hrest⟩
      · exact ih h hrest
      · exact (ih ((updateMonster_edits h hid).registry h) hrest).trans (updateMonster_calls h hid)
  exact hfrom h hok

/-! ## Leaving and entering -/

theorem Left.calls (hl : Left s w w') : w'.calls pid = w.calls pid := by
  cases hl with
  | noPlayer => rfl
  | removed _ hremoved =>
    cases hremoved with
    | absent => rfl
    | erased _ hq => exact hq.calls_announce

theorem Entered.calls (he : Entered s w w') : w'.calls pid = w.calls pid := by
  obtain ⟨hsends, hadd⟩ := he
  rename_i mid
  have hquiet : mid.calls pid = (w.link s).calls pid :=
    World.calls_of_trace hsends.trace (by simp)
  exact hadd.calls_announce.trans hquiet

/-! ## Moving -/

/-- An attack begins. -/
def isSwing (before after : Int32) : Bool := decide (before ≠ skill ∧ after = skill)

theorem isSwing_self (state : Int32) : isSwing state state = false := by
  simp [isSwing]

theorem processSkill_calls (h : Registry w) (hok : processSkill P ref w = .ok w') :
    w'.calls pid = (w.log (.processSkill ref.id)).calls pid := by
  rcases processSkill_cases h hok with ⟨rfl, -⟩ | ⟨id, p, m, -, hhit⟩
  · rfl
  · exact (applyDamage_ok (h.of_quiet (.log w _)) hhit).calls

/-- Nobody else attacks. -/
theorem handleCMove_calls_of_ne {pkt : CMove} (h : Registry w) (hne : pkt.info.objectid ≠ pid)
    (hok : handleCMove P pkt w = .ok w') : w'.calls pid = w.calls pid := by
  cases hfind : w.room.findObject pkt.info.objectid with
  | none =>
    obtain rfl := handleCMove_absent hfind hok
    rfl
  | some ref =>
    obtain ⟨hid, hreg⟩ := GameRoom.findObject_eq_some hfind
    obtain ⟨prev, hprev⟩ := Option.isSome_iff_exists.1 hreg
    obtain ⟨w₁, hskill, hsay⟩ := handleCMove_found hfind hprev hok
    have hother : ((w.modifyInfo ref (moveInfo pkt)).log (.processSkill ref.id)).calls pid =
        w.calls pid := World.calls_log fun heq => hne (hid.symm.trans (Event.processSkill.inj heq))
    have h₁ : Registry w₁ ∧ w₁.calls pid = w.calls pid := by
      split at hskill
      · rename_i hplayer
        have hattack := processSkill_moved h hprev hplayer.1 hskill
        exact ⟨hattack.edits.registry h.moveInfo,
          (processSkill_calls h.moveInfo hskill).trans hother⟩
      · obtain rfl := Except.ok.inj hskill
        exact ⟨h.moveInfo, rfl⟩
    exact (broadcast_ok h₁.1.toLinked hsay).calls_announce.trans h₁.2

/-- **The player that is named attacks exactly if its state becomes `SKILL`.** -/
theorem handleCMove_calls_self {pkt : CMove} {prev : ObjectInfo} (h : Registry w)
    (hprev : w.room.info? (.player pid) = some prev) (hid : pkt.info.objectid = pid)
    (hok : handleCMove P pkt w = .ok w') :
    w'.calls pid = w.calls pid + (isSwing prev.state pkt.info.state).toNat := by
  have hfind : w.room.findObject pkt.info.objectid = some (.player pid) := by
    rw [hid]
    exact h.findObject (GameRoom.registered_of_info? hprev)
  obtain ⟨w₁, hskill, hsay⟩ := handleCMove_found hfind hprev hok
  have htype : (moveInfo pkt prev).objecttype = objectTypePlayer := by
    rw [moveInfo_objecttype]
    exact h.objecttype hprev
  rw [moveInfo_state, htype] at hskill
  have h₁ : Registry w₁ ∧ w₁.calls pid =
      w.calls pid + (isSwing prev.state pkt.info.state).toNat := by
    split at hskill
    · rename_i hedge
      refine ⟨(processSkill_moved h hprev htype hskill).edits.registry h.moveInfo, ?_⟩
      rw [processSkill_calls h.moveInfo hskill, isSwing, decide_eq_true hedge.2]
      exact World.calls_log_self
    · rename_i hcalm
      obtain rfl := Except.ok.inj hskill
      have hnot : ¬ (prev.state ≠ skill ∧ pkt.info.state = skill) := fun hedge => hcalm ⟨rfl, hedge⟩
      rw [isSwing, decide_eq_false hnot]
      exact ⟨h.moveInfo, rfl⟩
  exact (broadcast_ok h₁.1.toLinked hsay).calls_announce.trans h₁.2

end Zelda.Server
