import Zelda.Server.Edits

/-!
# The update of the room, edit by edit

Every state of a monster's update is a sequence of edits: choosing a target, turning, stepping along
a path, waiting and striking (`updateMonster_edits`). So is the update of the whole room
(`update_edits`).
-/

namespace Zelda.Server

open Protocol Std

variable {P : Platform} {w w' : World} {id : ObjectId} {ref : ObjectRef} {m : Monster} {fuel : ℕ}
  {now : UInt64}

/-! ## Changing a monster -/

theorem World.modifyMonster_modifyMonster (f g : Monster → Monster) :
    (w.modifyMonster id f).modifyMonster id g = w.modifyMonster id fun m => g (f m) := by
  simp only [modifyMonster, setRoom, GameRoom.modifyMonster_modifyMonster]

theorem World.modifyInfo_monster (f : ObjectInfo → ObjectInfo) :
    w.modifyInfo (.monster id) f = w.modifyMonster id fun m => { m with info := f m.info } := rfl

theorem World.getElem?_modifyMonster (hm : w.room.monsters[id]? = some m) (f : Monster → Monster) :
    (w.modifyMonster id f).room.monsters[id]? = some (f m) := by
  rw [modifyMonster, room_setRoom, GameRoom.getElem?_modifyMonster, if_pos rfl, hm]
  rfl

/-- What a monster keeps to itself: its target and its timer. -/
theorem think_edits (w : World) (f : Monster → Monster) (hinfo : ∀ m, (f m).info = m.info)
    (hroom : ∀ m, (f m).room = m.room) : Edits w (w.modifyMonster id f) := by
  cases hm : w.room.monsters[id]? with
  | none =>
    have hsame : w.modifyMonster id f = w := by
      rw [World.modifyMonster, GameRoom.modifyMonster_of_none hm]
      rfl
    rw [hsame]
  | some m =>
    have hbody : SameBody m.info (f m).info := by
      rw [hinfo]
      exact ⟨rfl, rfl, rfl, rfl, rfl, rfl⟩
    exact .single (.think hm hbody (by rw [hinfo]) (by rw [hinfo]) (hroom m))

theorem setTarget_edits (w : World) (id : ObjectId) (target : Option ObjectId) :
    Edits w (w.setTarget id target) :=
  think_edits w ({ · with target := target }) (fun _ => rfl) fun _ => rfl

theorem Registry.setTarget (h : Registry w) (id : ObjectId) (target : Option ObjectId) :
    Registry (w.setTarget id target) := (setTarget_edits w id target).registry h

theorem wait_edits (w : World) (id : ObjectId) (now : UInt64) : Edits w (w.wait id now) :=
  think_edits w ({ · with waitUntil := now + 1000 }) (fun _ => rfl) fun _ => rfl

/-! ## What an update does -/

theorem setState_cases {state : Int32} {announce : Bool}
    (hok : setState P ref state announce w = .ok w') :
    w' = w ∨ w' = w.modifyInfo ref (·.setState state) ∨
      broadcastMove P ref (w.modifyInfo ref (·.setState state)) = .ok w' := by
  unfold setState at hok
  split at hok
  · exact .inl (Except.ok.inj hok).symm
  · split at hok
    · exact .inl (Except.ok.inj hok).symm
    · simp only at hok
      split at hok
      · exact .inr (.inr hok)
      · exact .inr (.inl (Except.ok.inj hok).symm)

/-- A path of two cells is followed to the second, and one of a single cell to that. -/
theorem followPath_cases {info : ObjectInfo} {path : List Vec2Int}
    (hok : followPath P now id info path w = .ok w') :
    w' = w ∨ (∃ pos, path = [pos] ∧ w' = w.setCellPos (.monster id) pos) ∨
      ∃ src nextPos rest, path = src :: nextPos :: rest ∧ w.room.canGo nextPos = true ∧
        setState P (.monster id) move true (((w.setDir (.monster id)
          (info.getLookAtDir nextPos)).setCellPos (.monster id) nextPos).wait id now) = .ok w' := by
  unfold followPath at hok
  split at hok
  · split at hok
    · rename_i hgo
      exact .inr (.inr ⟨_, _, _, rfl, hgo, hok⟩)
    · exact .inl (Except.ok.inj hok).symm
  · exact .inr (.inl ⟨_, rfl, (Except.ok.inj hok).symm⟩)
  · exact .inl (Except.ok.inj hok).symm

/-- What an idle monster does in an update. -/
inductive IdleUpdate (P : Platform) (fuel : ℕ) (now : UInt64) (id : ObjectId) (w w' : World) : Prop
  /-- It is not in the room. -/
  | absent (hw : w' = w)
  /-- It finds no player, or no way to the one it aims at. -/
  | stays {target : Option ObjectId} (hw : w' = w.setTarget id target)
  /-- It turns to a player beside it. -/
  | aims {m : Monster} {target : Option ObjectId} {pid : ObjectId} {player : Player} {w₂ : World}
      (hm : w.room.monsters[id]? = some m) (hroom : m.room = true)
      (hlock : (w.setTarget id target).room.lock target = some (pid, player))
      (hstate : setState P (.monster id) skill true ((w.setTarget id target).setDir (.monster id)
        (m.info.getLookAtDir player.info.getCellPos)) = .ok w₂)
      (hw : w' = w₂.wait id now)
  /-- It follows the path to a player. -/
  | follows {m : Monster} {target : Option ObjectId} {pid : ObjectId} {player : Player}
      {path : List Vec2Int} (hm : w.room.monsters[id]? = some m) (hroom : m.room = true)
      (hlock : (w.setTarget id target).room.lock target = some (pid, player))
      (hpath : findPath P.pq (w.setTarget id target).room m.info.getCellPos
        player.info.getCellPos fuel = some (some path))
      (hfollow : followPath P now id m.info path (w.setTarget id target) = .ok w')

theorem updateIdle_cases (hok : updateIdle P fuel now id w = .ok w') :
    IdleUpdate P fuel now id w w' := by
  unfold updateIdle at hok
  split at hok
  · exact .absent (Except.ok.inj hok).symm
  · rename_i m hm
    split at hok
    · exact .absent (Except.ok.inj hok).symm
    · rename_i hroom
      have hroom : m.room = true := eq_true_of_ne_false hroom
      simp only at hok
      split at hok
      · exact .stays (Except.ok.inj hok).symm
      · rename_i pid player hlock
        split at hok
        · obtain ⟨w₂, hstate, hwait⟩ := bind_eq_ok.1 hok
          exact .aims hm hroom hlock hstate (Except.ok.inj hwait).symm
        · split at hok
          · cases hok
          · exact .stays (Except.ok.inj hok).symm
          · rename_i path hpath
            exact .follows hm hroom hlock hpath hok

/-- When its time has come the monster is idle again. -/
theorem updateMove_cases (hok : updateMove P now id w = .ok w') :
    w' = w ∨ ∃ m, w.room.monsters[id]? = some m ∧ m.waitUntil ≤ now ∧
      setState P (.monster id) idle false w = .ok w' := by
  unfold updateMove at hok
  split at hok
  · exact .inl (Except.ok.inj hok).symm
  · rename_i m hm
    split at hok
    · exact .inl (Except.ok.inj hok).symm
    · rename_i hdue
      exact .inr ⟨m, hm, UInt64.not_lt.1 hdue, hok⟩

/-- A strike hits a player or nobody, and may forget the target. -/
theorem strike_cases (hok : strike P id m w = .ok w') :
    (w' = w ∨ w' = w.setTarget id none) ∨
      ∃ self targetId target w₁, w.room.lock m.target = some (targetId, target) ∧
        target.room = m.room ∧ w.room.findObject m.info.objectid = some self ∧
        applyDamage P self (.player targetId) w = .ok w₁ ∧
        (w' = w₁ ∨ w' = w₁.setTarget id none) := by
  unfold strike at hok
  split at hok
  · exact .inl (.inr (Except.ok.inj hok).symm)
  · rename_i targetId target hlock
    split at hok
    · exact .inl (.inr (Except.ok.inj hok).symm)
    · rename_i hroom
      split at hok
      · split at hok
        · exact .inl (.inl (Except.ok.inj hok).symm)
        · rename_i self hself
          obtain ⟨w₁, hhit, hreset⟩ := bind_eq_ok.1 hok
          refine .inr ⟨self, targetId, target, w₁, hlock, not_not.1 hroom, hself, hhit, ?_⟩
          split at hreset
          · exact .inr (Except.ok.inj hreset).symm
          · exact .inl (Except.ok.inj hreset).symm
      · exact .inl (.inl (Except.ok.inj hok).symm)

/-- When its time has come the monster is idle again, may strike, and is announced. -/
theorem updateSkill_cases (hok : updateSkill P now id w = .ok w') :
    w' = w ∨ ∃ m w₁ w₂, w.room.monsters[id]? = some m ∧ m.waitUntil ≤ now ∧
      setState P (.monster id) idle false w = .ok w₁ ∧
      (w₂ = w₁ ∨ m.room = true ∧ strike P id m w₁ = .ok w₂) ∧
      broadcastMove P (.monster id) w₂ = .ok w' := by
  unfold updateSkill at hok
  split at hok
  · exact .inl (Except.ok.inj hok).symm
  · rename_i m hm
    split at hok
    · exact .inl (Except.ok.inj hok).symm
    · rename_i hdue
      obtain ⟨w₁, hstate, hok⟩ := bind_eq_ok.1 hok
      obtain ⟨w₂, hstrike, hsay⟩ := bind_eq_ok.1 hok
      refine .inr ⟨m, w₁, w₂, hm, UInt64.not_lt.1 hdue, hstate, ?_, hsay⟩
      split at hstrike
      · rename_i hroom
        exact .inr ⟨hroom, hstrike⟩
      · exact .inl (Except.ok.inj hstrike).symm

/-- The state of the monster decides which of the three updates it gets. -/
theorem updateMonster_cases (hok : updateMonster P fuel now id w = .ok w') :
    w' = w ∨ ∃ info, w.room.info? (.monster id) = some info ∧
      (info.state = idle ∧ updateIdle P fuel now id w = .ok w' ∨
        info.state = move ∧ updateMove P now id w = .ok w' ∨
        info.state = skill ∧ updateSkill P now id w = .ok w') := by
  unfold updateMonster at hok
  split at hok
  · exact .inl (Except.ok.inj hok).symm
  · rename_i info hinfo
    split at hok
    · rename_i hidle
      exact .inr ⟨info, hinfo, .inl ⟨hidle, hok⟩⟩
    · split at hok
      · rename_i hmove
        exact .inr ⟨info, hinfo, .inr (.inl ⟨hmove, hok⟩)⟩
      · split at hok
        · rename_i hskill
          exact .inr ⟨info, hinfo, .inr (.inr ⟨hskill, hok⟩)⟩
        · exact .inl (Except.ok.inj hok).symm

/-- A monster that is there gets its turn, and then the others get theirs. -/
theorem updateFrom_cons_cases {clock : ObjectId → UInt64} {ids : List ObjectId}
    (hok : updateFrom P fuel clock (id :: ids) w = .ok w') :
    updateFrom P fuel clock ids w = .ok w' ∨ ∃ w₁,
      updateMonster P fuel (clock id) id w = .ok w₁ ∧ updateFrom P fuel clock ids w₁ = .ok w' := by
  unfold updateFrom at hok
  split at hok
  · obtain ⟨w₁, hid, hrest⟩ := bind_eq_ok.1 hok
    split at hrest
    · exact .inr ⟨w₁, hid, hrest⟩
    · cases hrest
  · exact .inl hok

/-! ## The setters -/

theorem broadcastMove_room (h : Registry w) (hok : broadcastMove P ref w = .ok w') :
    w'.room = w.room := by
  unfold broadcastMove at hok
  split at hok
  · cases hok
    rfl
  · split at hok
    · exact (broadcast_ok h.toLinked hok).room
    · cases hok
      rfl

theorem broadcastMove_edits (h : Registry w) (hok : broadcastMove P ref w = .ok w') :
    Edits w w' := by
  unfold broadcastMove at hok
  split at hok
  · cases hok
    exact .refl
  · rename_i o ho
    split at hok
    · exact .single (.announce (GameRoom.info?_of_object? ho) (broadcast_ok h.toLinked hok))
    · cases hok
      exact .refl

theorem Registry.setDir (h : Registry w) (id : ObjectId) (dir : Int32) :
    Registry (w.setDir (.monster id) dir) := h.modifyInfo fun _ => ⟨rfl, rfl⟩

theorem Registry.stepped (h : Registry w) (id : ObjectId) (dir : Int32) (nextPos : Vec2Int)
    (now : UInt64) :
    Registry (((w.setDir (.monster id) dir).setCellPos (.monster id) nextPos).wait id now) := by
  have hstep : Registry ((w.setDir (.monster id) dir).setCellPos (.monster id) nextPos) :=
    (h.setDir id dir).modifyInfo fun _ => ⟨rfl, rfl⟩
  exact hstep.modifyMonster fun _ _ => ⟨rfl, rfl⟩

/-- Turning, stepping and waiting are one change of the monster. -/
theorem World.stepped_eq (w : World) (id : ObjectId) (dir : Int32) (nextPos : Vec2Int)
    (now : UInt64) :
    ((w.setDir (.monster id) dir).setCellPos (.monster id) nextPos).wait id now =
      w.modifyMonster id fun m =>
        { m with info := (m.info.setDir dir).setCellPos nextPos, waitUntil := now + 1000 } := by
  simp only [setDir, setCellPos, wait, modifyInfo_monster, modifyMonster_modifyMonster]

theorem setState_silent_edits {state : Int32}
    (hok : setState P (.monster id) state false w = .ok w') : Edits w w' := by
  unfold setState at hok
  split at hok
  · cases hok
    exact .refl
  · rename_i info hinfo
    split at hok
    · cases hok
      exact .refl
    · cases hok
      rw [GameRoom.info?_monster, Option.map_eq_some_iff] at hinfo
      obtain ⟨m, hm, rfl⟩ := hinfo
      exact .single (.think hm ⟨rfl, rfl, rfl, rfl, rfl, rfl⟩ rfl rfl rfl)

/-- A monster that enters another state tells everybody. -/
theorem setState_announce_ok {state : Int32} (h : Registry w)
    (hm : w.room.monsters[id]? = some m) (hroom : m.room = true) (hne : m.info.state ≠ state)
    (hok : setState P (.monster id) state true w = .ok w') :
    Quiet (w.modifyInfo (.monster id) (·.setState state)) w'
      ((w.modifyInfo (.monster id) (·.setState state)).room.announce
        (.sMove (m.info.setState state))) := by
  have hinfo : w.room.info? (.monster id) = some m.info := GameRoom.info?_of_monster hm
  have hm' : (w.modifyInfo (.monster id) (·.setState state)).room.object? (.monster id) =
      some { m.toGameObject with info := m.info.setState state } := by
    have hget := World.getElem?_modifyMonster hm fun m => { m with info := m.info.setState state }
    exact congrArg (Option.map Monster.toGameObject) hget
  unfold setState at hok
  simp only [hinfo, if_neg hne, if_true, broadcastMove, hm', hroom] at hok
  exact broadcast_ok (h.modifyInfo (f := (·.setState state)) fun _ => ⟨rfl, rfl⟩).toLinked hok

/-- A monster is changed, possibly moved to a cell it can go to, enters another state and tells
everybody. -/
theorem act_edits {state : Int32} {f : Monster → Monster} (h : Registry w)
    (hm : w.room.monsters[id]? = some m)
    (hok : setState P (.monster id) state true (w.modifyMonster id f) = .ok w')
    (hroom : m.room = true) (hsame : (f m).room = m.room) (hne : (f m).info.state ≠ state)
    (hbody : SameBody m.info (f m).info) (hdir : IsDir (f m).info.dir)
    (hcell : (f m).info.getCellPos = m.info.getCellPos ∨
      w.room.canGo (f m).info.getCellPos = true) : Edits w w' := by
  have h₁ := h.modifyMonster_body hm hbody
  have hq := setState_announce_ok h₁ (World.getElem?_modifyMonster hm f)
    (hsame.trans hroom) hne hok
  rw [World.modifyInfo_monster, World.modifyMonster_modifyMonster] at hq
  exact .single (.act (f := fun m => { f m with info := (f m).info.setState state }) hm
    ⟨hbody.objectid, hbody.objecttype, hbody.hp, hbody.maxhp, hbody.attack, hbody.defence⟩
    hcell hq hdir hsame)

/-! ## The three states -/

theorem followPath_edits {path : List Vec2Int} (h : Registry w)
    (hm : w.room.monsters[id]? = some m) (hroom : m.room = true) (hidle : m.info.state = idle)
    (hpath : ∀ pos, path = [pos] → pos = m.info.getCellPos)
    (hok : followPath P now id m.info path w = .ok w') : Edits w w' := by
  rcases followPath_cases hok with rfl | ⟨pos, hpos, rfl⟩ | ⟨src, nextPos, rest, -, hgo, hstate⟩
  · exact .refl
  · refine .single (.think hm ⟨rfl, rfl, rfl, rfl, rfl, rfl⟩ rfl ?_ rfl)
    rw [hpath pos hpos]
    rfl
  · have hne : m.info.state ≠ move := by rw [hidle]; decide
    rw [World.stepped_eq] at hstate
    exact act_edits h hm hstate hroom rfl hne ⟨rfl, rfl, rfl, rfl, rfl, rfl⟩
      (m.info.isDir_getLookAtDir nextPos) (.inr hgo)

theorem updateIdle_edits (h : Registry w) (hidle : ∀ m, w.room.monsters[id]? = some m →
    m.info.state = idle) (hok : updateIdle P fuel now id w = .ok w') : Edits w w' := by
  -- choosing a target is an edit of its own
  have htarget : ∀ target, Edits w (w.setTarget id target) := setTarget_edits w id
  cases updateIdle_cases hok with
  | absent hw => exact hw ▸ .refl
  | @stays target hw => exact hw ▸ htarget target
  | @aims m target pid player w₂ hm hroom hlock hstate hw =>
    have h₁ := (htarget target).registry h
    have hm₁ : (w.setTarget id target).room.monsters[id]? = some { m with target := target } :=
      World.getElem?_modifyMonster hm _
    have hne : m.info.state ≠ skill := by rw [hidle m hm]; decide
    simp only [World.setDir, World.modifyInfo_monster] at hstate
    have hact := act_edits h₁ hm₁ hstate hroom rfl hne ⟨rfl, rfl, rfl, rfl, rfl, rfl⟩
      (m.info.isDir_getLookAtDir _) (.inl rfl)
    rw [hw]
    exact ((htarget target).trans hact).trans (wait_edits w₂ id now)
  | @follows m target pid player path hm hroom hlock hpath hfollow =>
    have h₁ := (htarget target).registry h
    have hm₁ : (w.setTarget id target).room.monsters[id]? = some { m with target := target } :=
      World.getElem?_modifyMonster hm _
    refine (htarget target).trans (followPath_edits h₁ hm₁ hroom (hidle m hm) ?_ hfollow)
    rintro pos rfl
    exact findPath_singleton hpath

theorem updateMove_edits (hok : updateMove P now id w = .ok w') : Edits w w' := by
  rcases updateMove_cases hok with rfl | ⟨-, -, -, hstate⟩
  · exact .refl
  · exact setState_silent_edits hstate

theorem strike_edits (h : Registry w) (hok : strike P id m w = .ok w') : Edits w w' := by
  rcases strike_cases hok with (rfl | rfl) | ⟨self, targetId, -, w₁, -, -, -, hhit, rfl | rfl⟩
  · exact .refl
  · exact setTarget_edits w id none
  · exact (applyDamage_ok h hhit).edits
  · exact (applyDamage_ok h hhit).edits.trans (setTarget_edits w₁ id none)

theorem updateSkill_edits (h : Registry w) (hok : updateSkill P now id w = .ok w') :
    Edits w w' := by
  rcases updateSkill_cases hok with rfl | ⟨m, w₁, w₂, -, -, hstate, hstrike, hsay⟩
  · exact .refl
  · have he₁ : Edits w w₁ := setState_silent_edits hstate
    have h₁ := he₁.registry h
    have he₂ : Edits w₁ w₂ := by
      rcases hstrike with rfl | ⟨-, hstrike⟩
      · exact .refl
      · exact strike_edits h₁ hstrike
    exact (he₁.trans he₂).trans (broadcastMove_edits (he₂.registry h₁) hsay)

theorem updateMonster_edits (h : Registry w) (hok : updateMonster P fuel now id w = .ok w') :
    Edits w w' := by
  rcases updateMonster_cases hok with rfl | ⟨info, hinfo, ⟨hidle, hok⟩ | ⟨-, hok⟩ | ⟨-, hok⟩⟩
  · exact .refl
  · refine updateIdle_edits h (fun m hm => ?_) hok
    rw [GameRoom.info?_monster, hm] at hinfo
    obtain rfl := Option.some.inj hinfo
    exact hidle
  · exact updateMove_edits hok
  · exact updateSkill_edits h hok

/-! ## The update of the room -/

theorem updateFrom_edits {clock : ObjectId → UInt64} {ids : List ObjectId} (h : Registry w)
    (hok : updateFrom P fuel clock ids w = .ok w') : Edits w w' := by
  induction ids generalizing w with
  | nil =>
    cases hok
    exact .refl
  | cons id ids ih =>
    rcases updateFrom_cons_cases hok with hrest | ⟨w₁, hid, hrest⟩
    · exact ih h hrest
    · have he := updateMonster_edits h hid
      exact he.trans (ih (he.registry h) hrest)

theorem update_edits {clock : ObjectId → UInt64} (h : Registry w)
    (hok : update P fuel clock w = .ok w') : Edits w w' := updateFrom_edits h hok

end Zelda.Server
