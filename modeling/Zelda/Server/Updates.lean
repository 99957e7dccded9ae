import Zelda.Server.Turns

/-!
# The update of the room

An update gives every monster its turn (`Server/Turns`). Its loops are bounded in the model; where
no distance wraps around the bound is not reached (`updateFrom_settled`).

Main result: `update_safe`. An update never moves a monster onto another object or off the map.
-/

namespace Zelda.Server

open Protocol
open scoped Int32Order

variable {P : Platform} {fuel : ℕ} {now : UInt64} {clock : ObjectId → UInt64} {id : ObjectId}
  {w w' : World} {r r' : GameRoom} {Q : PriorityQueue PQNode PQNode.cost}

/-! ## No distance wraps around -/

/-- No walkable cell is half the `int32` range away from a player in both coordinates. Where
coordinates do not wrap around there is no such cell. -/
def GameRoom.Unwrapped (r : GameRoom) : Prop :=
  ∀ id c, r.cells (.player id) = some c → ¬ r.tilemap.Walkable c.antipode

theorem GameRoom.Unwrapped.mono (h : r.Unwrapped) (htilemap : r'.tilemap = r.tilemap)
    (hcells : ∀ id c, r'.cells (.player id) = some c → r.cells (.player id) = some c) :
    r'.Unwrapped := by
  intro id c hc
  rw [htilemap]
  exact h id c (hcells id c hc)

theorem Turn.unwrapped (h : Turn Q fuel id r r') (hr : r.Unwrapped) : r'.Unwrapped := by
  cases h with
  | stood hstood => exact hr.mono hstood.tilemap hstood.player
  | stepped _ _ _ _ htilemap hcells =>
    refine hr.mono htilemap fun k c hc => ?_
    rwa [hcells, Function.update_of_ne (by simp)] at hc

/-! ## Updates come to an end -/

theorem findPath_mono {m n : ℕ} (hmn : m ≤ n) {src dest : Vec2Int}
    {res : Option (List Vec2Int)} (h : findPath Q r src dest m = some res) :
    findPath Q r src dest n = some res := by
  rw [findPath_eq] at h ⊢
  split
  · rename_i hfar
    rwa [if_pos hfar] at h
  · rename_i hnear
    rw [if_neg hnear] at h
    obtain ⟨path, hrun, rfl⟩ := Option.map_eq_some_iff.1 h
    rw [BestFirst.run_mono hmn hrun, Option.map_some]

theorem findPath_settles {dest : Vec2Int} (hdest : ¬ r.tilemap.Walkable dest.antipode)
    (Q : PriorityQueue PQNode PQNode.cost) (src : Vec2Int) :
    ∃ n res, ∀ fuel, n ≤ fuel → findPath Q r src dest fuel = some res := by
  have hagain : OnlyZero r src dest 10 dest :=
    onlyZero_dest fun h => hdest (GameRoom.canGo_iff.1 h.1).1
  obtain ⟨⟨found, st⟩, hs⟩ := search_terminates Q hagain
  obtain ⟨n, hn⟩ := findPath_isSome_iff.2
    (.inr ⟨found, st, hs, settles_destination hagain hs⟩)
  obtain ⟨res, hres⟩ := Option.isSome_iff_exists.1 hn
  exact ⟨n, res, fun fuel hfuel => findPath_mono hfuel hres⟩

theorem ok_ne_outOfFuel (w : World) : (.ok w : Result) ≠ .error .outOfFuel := fun h => nomatch h

theorem bind_ne_outOfFuel {x : Result} {f : World → Result} (hx : x ≠ .error .outOfFuel)
    (hf : ∀ w, x = .ok w → f w ≠ .error .outOfFuel) : (x >>= f) ≠ .error .outOfFuel := by
  cases x with
  | error fault => exact hx
  | ok w => exact hf w rfl

theorem broadcastMove_ne_outOfFuel (h : Registry w) (ref : ObjectRef) :
    broadcastMove P ref w ≠ .error .outOfFuel := by
  unfold broadcastMove
  split
  · exact ok_ne_outOfFuel _
  · split
    · exact broadcast_ne_outOfFuel h.toLinked _
    · exact ok_ne_outOfFuel _

theorem setState_ne_outOfFuel (h : Registry w) (state : Int32) (announce : Bool) :
    setState P (.monster id) state announce w ≠ .error .outOfFuel := by
  unfold setState
  split
  · exact ok_ne_outOfFuel _
  · split
    · exact ok_ne_outOfFuel _
    · simp only
      split
      · exact broadcastMove_ne_outOfFuel
          (h.modifyInfo (f := (·.setState state)) fun _ => ⟨rfl, rfl⟩) _
      · exact ok_ne_outOfFuel _

theorem applyDamage_ne_outOfFuel (h : Registry w) (attacker victim : ObjectRef) :
    applyDamage P attacker victim w ≠ .error .outOfFuel := by
  unfold applyDamage
  split
  · rename_i a v _ _
    split
    · exact ok_ne_outOfFuel _
    · have hr : Registry ((w.log (hitEvent attacker victim a.info v.info)).modifyInfo victim
          (·.setHp (hpAfter a.info v.info))) :=
        (h.of_quiet (.log w _)).modifyInfo fun _ => ⟨rfl, rfl⟩
      simp only
      split
      · intro hfuel
        rcases reentrant_removeObject_cases hr.toLinked (fun _ _ _ _ hl => disconnect_severs hl)
          with he | ⟨w', hw', -⟩
        · cases he.symm.trans hfuel
        · cases hw'.symm.trans hfuel
      · exact broadcast_ne_outOfFuel hr.toLinked _
  · exact ok_ne_outOfFuel _

theorem strike_ne_outOfFuel (h : Registry w) (m : Monster) :
    strike P id m w ≠ .error .outOfFuel := by
  unfold strike
  split
  · exact ok_ne_outOfFuel _
  · split
    · exact ok_ne_outOfFuel _
    · split
      · split
        · exact ok_ne_outOfFuel _
        · refine bind_ne_outOfFuel (applyDamage_ne_outOfFuel h _ _) fun w₁ _ => ?_
          split <;> exact ok_ne_outOfFuel _
      · exact ok_ne_outOfFuel _

theorem updateSkill_ne_outOfFuel (h : Registry w) :
    updateSkill P now id w ≠ .error .outOfFuel := by
  unfold updateSkill
  split
  · exact ok_ne_outOfFuel _
  · rename_i m _
    split
    · exact ok_ne_outOfFuel _
    · refine bind_ne_outOfFuel (setState_ne_outOfFuel h _ _) fun w₁ hstate => ?_
      have h₁ := (setState_silent_edits hstate).registry h
      refine bind_ne_outOfFuel ?_ fun w₂ hstrike => ?_
      · split
        · exact strike_ne_outOfFuel h₁ m
        · exact ok_ne_outOfFuel _
      · refine broadcastMove_ne_outOfFuel ?_ _
        split at hstrike
        · exact (strike_edits h₁ hstrike).registry h₁
        · cases hstrike
          exact h₁

theorem followPath_ne_outOfFuel (h : Registry w) (info : ObjectInfo) (path : List Vec2Int) :
    followPath P now id info path w ≠ .error .outOfFuel := by
  unfold followPath
  split
  · rename_i nextPos _
    split
    · exact setState_ne_outOfFuel (h.stepped id _ nextPos now) _ _
    · exact ok_ne_outOfFuel _
  · exact ok_ne_outOfFuel _
  · exact ok_ne_outOfFuel _

/-- With every bound from some on the result is the same, and the bound is not why. -/
def Settled (f : ℕ → Result) : Prop :=
  ∃ n res, res ≠ .error .outOfFuel ∧ ∀ fuel, n ≤ fuel → f fuel = res

theorem Settled.of_eq {f : ℕ → Result} {res : Result} (hres : res ≠ .error .outOfFuel)
    (h : ∀ fuel, f fuel = res) : Settled f := ⟨0, res, hres, fun fuel _ => h fuel⟩

theorem updateIdle_settled (h : Registry w) (hu : w.room.Unwrapped) (P : Platform) (now : UInt64)
    (id : ObjectId) : Settled fun fuel => updateIdle P fuel now id w := by
  unfold updateIdle
  cases hm : w.room.monsters[id]? with
  | none => exact .of_eq (ok_ne_outOfFuel _) fun _ => rfl
  | some m =>
    by_cases hroom : m.room = false
    · simp only [hroom, if_true]
      exact .of_eq (ok_ne_outOfFuel _) fun _ => rfl
    · simp only [if_neg hroom]
      set target := if (w.room.lock m.target).isNone then
        w.room.findClosestPlayer m.info.getCellPos else m.target
      set w₁ := w.setTarget id target
      have hcells : w₁.room.cells = w.room.cells :=
        GameRoom.cells_modifyMonster_of_cell fun _ => rfl
      have h₁ : Registry w₁ := h.setTarget id target
      cases hlock : w₁.room.lock target with
      | none => exact .of_eq (ok_ne_outOfFuel _) fun _ => rfl
      | some locked =>
        obtain ⟨pid, player⟩ := locked
        simp only
        split
        · refine .of_eq ?_ fun _ => rfl
          have hdir := h₁.setDir id (m.info.getLookAtDir player.info.getCellPos)
          exact bind_ne_outOfFuel (setState_ne_outOfFuel hdir _ _) fun _ _ => ok_ne_outOfFuel _
        · have hplayer : w.room.cells (.player pid) = some player.info.getCellPos := by
            rw [← hcells]
            exact GameRoom.cells_of_info? (GameRoom.info?_of_player (GameRoom.lock_eq_some hlock).2)
          obtain ⟨n, res, hres⟩ :=
            findPath_settles (r := w₁.room) (hu _ _ hplayer) P.pq m.info.getCellPos
          cases res with
          | none =>
            refine ⟨n, .ok w₁, (ok_ne_outOfFuel _), fun fuel hf => ?_⟩
            simp only [hres fuel hf]
          | some path =>
            refine ⟨n, followPath P now id m.info path w₁, followPath_ne_outOfFuel h₁ _ _,
              fun fuel hf => ?_⟩
            simp only [hres fuel hf]

theorem updateMonster_settled (h : Registry w) (hu : w.room.Unwrapped) (P : Platform)
    (now : UInt64) (id : ObjectId) : Settled fun fuel => updateMonster P fuel now id w := by
  unfold updateMonster
  cases w.room.info? (.monster id) with
  | none => exact .of_eq (ok_ne_outOfFuel _) fun _ => rfl
  | some info =>
    simp only
    split
    · exact updateIdle_settled h hu P now id
    · split
      · refine .of_eq ?_ fun _ => rfl
        unfold updateMove
        split
        · exact ok_ne_outOfFuel _
        · split
          · exact ok_ne_outOfFuel _
          · exact setState_ne_outOfFuel h _ _
      · split
        · exact .of_eq (updateSkill_ne_outOfFuel h) fun _ => rfl
        · exact .of_eq (ok_ne_outOfFuel _) fun _ => rfl

/-- **An update comes to an end** where no distance wraps around. -/
theorem updateFrom_settled (h : Registry w) (hu : w.room.Unwrapped) (P : Platform)
    (clock : ObjectId → UInt64) (ids : List ObjectId) :
    Settled fun fuel => updateFrom P fuel clock ids w := by
  induction ids generalizing w with
  | nil => exact .of_eq (ok_ne_outOfFuel _) fun _ => rfl
  | cons id ids ih =>
    by_cases hmem : id ∈ w.room.monsters
    · obtain ⟨n₁, res, hres, hn₁⟩ := updateMonster_settled h hu P (clock id) id
      cases res with
      | error fault =>
        refine ⟨n₁, .error fault, hres, fun fuel hf => ?_⟩
        simp only [updateFrom, if_pos hmem, hn₁ fuel hf]
        rfl
      | ok w₁ =>
        have hok := hn₁ n₁ le_rfl
        have hturn := updateMonster_turn h hok
        have h₁ := (updateMonster_edits h hok).registry h
        have hmem₁ : id ∈ w₁.room.monsters := (hturn.safe.mem_monsters id).2 hmem
        obtain ⟨n₂, res, hres, hn₂⟩ := ih h₁ (hturn.unwrapped hu)
        refine ⟨max n₁ n₂, res, hres, fun fuel hf => ?_⟩
        simp only [updateFrom, if_pos hmem, hn₁ fuel (le_of_max_le_left hf)]
        refine (if_pos hmem₁).trans (hn₂ fuel (le_of_max_le_right hf))
    · obtain ⟨n, res, hres, hn⟩ := ih h hu
      refine ⟨n, res, hres, fun fuel hf => ?_⟩
      simp only [updateFrom, if_neg hmem]
      exact hn fuel hf

/-! ## The update of the room -/

theorem SafeTurns.mem_monsters {ids : List ObjectId} (h : SafeTurns ids r r') (k : ObjectId) :
    k ∈ r'.monsters ↔ k ∈ r.monsters := by
  induction h with
  | nil => rfl
  | cons hturn _ ih => exact ih.trans (hturn.mem_monsters k)

/-- One more turn: the update does not stop because the monster whose turn it was is not there
any more. -/
theorem updateFrom_concat {ids : List ObjectId} (h : Registry w)
    (hok : updateFrom P fuel clock ids w = .ok w') (hmem : id ∈ w.room.monsters) :
    updateFrom P fuel clock (ids ++ [id]) w = updateMonster P fuel (clock id) id w' := by
  induction ids generalizing w with
  | nil =>
    cases hok
    rw [List.nil_append, updateFrom, if_pos hmem]
    cases hturn : updateMonster P fuel (clock id) id w' with
    | error fault => rfl
    | ok w₁ => exact if_pos (((updateMonster_turn h hturn).safe.mem_monsters id).2 hmem)
  | cons k ids ih =>
    rw [List.cons_append, updateFrom]
    rw [updateFrom] at hok
    split at hok
    · rename_i hk
      obtain ⟨w₁, hturn, hrest⟩ := bind_eq_ok.1 hok
      have hmem₁ := (updateMonster_turn h hturn).safe.mem_monsters
      rw [if_pos ((hmem₁ k).2 hk)] at hrest
      rw [if_pos hk, hturn]
      refine (if_pos ((hmem₁ k).2 hk)).trans ?_
      exact ih ((updateMonster_edits h hturn).registry h) hrest ((hmem₁ id).2 hmem)
    · rename_i hk
      rw [if_neg hk]
      exact ih h hok hmem

theorem updateFrom_registry {ids : List ObjectId} (h : Registry w)
    (hok : updateFrom P fuel clock ids w = .ok w') : Registry w' := by
  induction ids generalizing w with
  | nil =>
    cases hok
    exact h
  | cons id ids ih =>
    rcases updateFrom_cons_cases hok with hrest | ⟨w₁, hturn, hrest⟩
    · exact ih h hrest
    · exact ih ((updateMonster_edits h hturn).registry h) hrest

/-- **An update moves monsters one after another, each to a free walkable neighbour**, and leaves
their map as it is.

* After any number of turns (`ids` may be all the monsters) every turn so far was safe.
* The next turn finds its monster, and the update goes on to it or stops where that turn itself
  stops, never because an entry of the map is gone; a turn that returns is safe and has neither
  inserted into the map nor erased from it, whether the update stops later or not.
* A path that `FindPath` returns has a first cell; the second is read only where there is one.
* Where no distance wraps around, the update comes to an end. -/
theorem update_safe (P : Platform) (clock : ObjectId → UInt64) (w : World) (h : Registry w) :
    (∀ fuel ids w', ids <+: w.room.monsters.keys → updateFrom P fuel clock ids w = .ok w' →
      SafeTurns ids w.room w'.room ∧ ∀ k, k ∈ w'.room.monsters ↔ k ∈ w.room.monsters) ∧
    (∀ fuel ids id w₁, ids ++ [id] <+: w.room.monsters.keys →
      updateFrom P fuel clock ids w = .ok w₁ →
      id ∈ w₁.room.monsters ∧
      updateFrom P fuel clock (ids ++ [id]) w = updateMonster P fuel (clock id) id w₁ ∧
      ∀ w₂, updateMonster P fuel (clock id) id w₁ = .ok w₂ →
        SafeTurn id w₁.room w₂.room ∧ ∀ k, k ∈ w₂.room.monsters ↔ k ∈ w₁.room.monsters) ∧
    (∀ fuel (r : GameRoom) src dest path,
      findPath P.pq r src dest fuel = some (some path) → path ≠ []) ∧
    (w.room.Unwrapped → ∃ n, ∀ fuel, n ≤ fuel → update P fuel clock w ≠ .error .outOfFuel) := by
  refine ⟨fun fuel ids w' _ hok => ?_, fun fuel ids id w₁ hids hok => ?_,
    fun fuel r src dest path hpath hnil => ?_, fun hu => ?_⟩
  · have hsafe := updateFrom_safe h hok
    exact ⟨hsafe, hsafe.mem_monsters⟩
  · have hmem : id ∈ w.room.monsters :=
      Std.ExtTreeMap.mem_keys.1 (hids.subset (List.mem_append_right ids List.mem_cons_self))
    have h₁ := updateFrom_registry h hok
    refine ⟨((updateFrom_safe h hok).mem_monsters id).2 hmem, updateFrom_concat h hok hmem,
      fun w₂ hturn => ?_⟩
    have hsafe := (updateMonster_turn h₁ hturn).safe
    exact ⟨hsafe, hsafe.mem_monsters⟩
  · obtain ⟨d, hway⟩ := findPath_isWay hpath
    have hhead := hway.head?_eq
    rw [hnil] at hhead
    cases hhead
  · obtain ⟨n, res, hres, hn⟩ := updateFrom_settled h hu P clock w.room.monsters.keys
    exact ⟨n, fun fuel hf heq => hres ((hn fuel hf).symm.trans heq)⟩

/-- A map with two walkable cells beside each other. -/
def nookMap : Tilemap where
  mapSize := ⟨10, 10⟩
  tiles := List.replicate 8 (List.replicate 10 { walkable := false }) ++
    [List.replicate 7 { walkable := false } ++ [{}, {}, { walkable := false }],
      List.replicate 10 { walkable := false }]

/-- The monster of `nookMap` steps towards the player. -/
theorem update_safe_nookMap :
    SafeTurns [1] (afterEnter nookMap).room (Result.world
      (update (.always .accepted) 10 (fun _ => 0) (afterEnter nookMap))).room ∧
    (Result.world (update (.always .accepted) 10 (fun _ => 0)
      (afterEnter nookMap))).room.cells (.monster 1) = some ⟨7, 8⟩ := by
  have hr : Registry (afterEnter nookMap) := registry_afterEnter nookMap
  have hkeys : (afterEnter nookMap).room.monsters.keys = [1] := by decide +kernel
  have hsafe := (update_safe (.always .accepted) (fun _ => 0) (afterEnter nookMap) hr).1 10 [1]
    (Result.world (update (.always .accepted) 10 (fun _ => 0) (afterEnter nookMap)))
    (by rw [hkeys]) (by rfl)
  exact ⟨hsafe.1, by decide +kernel⟩

end Zelda.Server
