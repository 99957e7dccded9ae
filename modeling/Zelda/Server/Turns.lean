import Zelda.Server.Cells
import Zelda.Server.FindPathTermination
import Zelda.Server.GreedyFindPath

/-!
# The turns of an update

`GameRoom::Update` gives every monster a turn, one after another. In its turn a monster stands where
it is, or steps to the second cell of the path that `FindPath` found in the room as the turns before
have left it (`updateMonster_turn`).

Main lemma: `updateFrom_safe`. From any room, whoever stands where, the turns move monsters only to
free walkable neighbours and leave their map as it is.
-/

namespace Zelda.Server

open Protocol Std

variable {P : Platform} {fuel : ℕ} {now : UInt64} {clock : ObjectId → UInt64} {id : ObjectId}
  {w w' : World} {r r' r'' : GameRoom} {Q : PriorityQueue PQNode PQNode.cost} {c : Vec2Int}

/-! ## Rooms with the same cells -/

namespace GameRoom

theorem cells_monster_eq_none : r.cells (.monster id) = none ↔ id ∉ r.monsters := by
  rw [cells, Option.map_eq_none_iff, ← registered_monster, Registered,
    Option.not_isSome_iff_eq_none]

/-- A monster that is changed but stays on its cell. -/
theorem cells_modifyMonster_of_cell {f : Monster → Monster}
    (hf : ∀ m, (f m).info.getCellPos = m.info.getCellPos) :
    (r.modifyMonster id f).cells = r.cells := by
  cases hm : r.monsters[id]? with
  | none => rw [modifyMonster_of_none hm]
  | some m =>
    have hinfo : r.info? (.monster id) = some m.info := info?_of_monster hm
    rw [cells_modifyMonster hm, hf, update_cells_self (cells_of_info? hinfo)]

theorem canGo_congr (htilemap : r'.tilemap = r.tilemap) (hcells : r'.cells = r.cells) :
    r'.canGo = r.canGo := by
  funext c
  rw [Bool.eq_iff_iff, canGo_iff_cells, canGo_iff_cells, hcells, Standable, Standable, htilemap]

end GameRoom

/-- `FindPath` sees of the room where one can go. -/
theorem findPath_congr (h : r'.canGo = r.canGo) (src dest : Vec2Int) :
    findPath Q r' src dest fuel = findPath Q r src dest fuel := by
  have hvisit : ∀ pos, visit Q r' src dest 10 pos = visit Q r src dest 10 pos := by
    intro pos
    funext st dir
    simp only [visit, h]
  have hbody : searchBody Q r' src dest 10 = searchBody Q r src dest 10 := by
    funext st
    simp only [searchBody, hvisit]
  simp only [findPath, hbody]

/-- Everybody stands where he stood, but players may have left. -/
structure Stood (r r' : GameRoom) : Prop where
  tilemap : r'.tilemap = r.tilemap
  monster : ∀ id, r'.cells (.monster id) = r.cells (.monster id)
  player : ∀ id c, r'.cells (.player id) = some c → r.cells (.player id) = some c

namespace Stood

theorem of_cells (htilemap : r'.tilemap = r.tilemap) (hcells : r'.cells = r.cells) :
    Stood r r' :=
  ⟨htilemap, fun _ => by rw [hcells], fun _ _ h => by rwa [hcells] at h⟩

theorem refl (r : GameRoom) : Stood r r := .of_cells rfl rfl

theorem trans (h : Stood r r') (h' : Stood r' r'') : Stood r r'' :=
  ⟨h'.tilemap.trans h.tilemap, fun id => (h'.monster id).trans (h.monster id),
    fun id c hc => h.player id c (h'.player id c hc)⟩

theorem modifyMonster {f : Monster → Monster}
    (hf : ∀ m, (f m).info.getCellPos = m.info.getCellPos) : Stood r (r.modifyMonster id f) :=
  .of_cells rfl (GameRoom.cells_modifyMonster_of_cell hf)

theorem of_quiet {evs : List Event} (h : Stood r w.room) (hq : Quiet w w' evs) :
    Stood r w'.room := by
  rwa [hq.room]

theorem of_hit {attacker : ObjectRef} {pid : ObjectId}
    (h : Hit attacker (.player pid) w w') : Stood w.room w'.room := by
  cases h with
  | missed => exact .refl _
  | hurt _ hv _ hq =>
    refine .of_quiet (.of_cells GameRoom.tilemap_modifyInfo ?_) hq
    exact GameRoom.cells_modifyInfo_of_cell hv rfl
  | killed _ _ _ hq =>
    refine .of_quiet ⟨GameRoom.tilemap_erase, fun id => ?_, fun id c hc => ?_⟩ hq
    · rw [World.room_erase, GameRoom.cells, GameRoom.info?_erase, if_neg (by simp)]
      rfl
    · exact GameRoom.cells_erase_le hc

end Stood

/-- What a monster does in its turn. -/
inductive Turn (Q : PriorityQueue PQNode PQNode.cost) (fuel : ℕ) (id : ObjectId)
    (r r' : GameRoom) : Prop
  /-- It stands. -/
  | stood (hstood : Stood r r') : Turn Q fuel id r r'
  /-- It steps along a path to a player. -/
  | stepped {c dest next : Vec2Int} {rest : List Vec2Int} {pid : ObjectId}
      (hc : r.cells (.monster id) = some c) (hdest : r.cells (.player pid) = some dest)
      (hpath : findPath Q r c dest fuel = some (some (c :: next :: rest)))
      (hgo : r.canGo next = true) (htilemap : r'.tilemap = r.tilemap)
      (hcells : r'.cells = Function.update r.cells (.monster id) (some next)) :
      Turn Q fuel id r r'

/-- What it does depends on the cells of the room alone. -/
theorem Turn.of_cells (htilemap : r'.tilemap = r.tilemap) (hcells : r'.cells = r.cells)
    (h : Turn Q fuel id r' r'') : Turn Q fuel id r r'' := by
  cases h with
  | stood hstood => exact .stood ((Stood.of_cells htilemap hcells).trans hstood)
  | stepped hc hdest hpath hgo htilemap' hcells' =>
    have hgo' := GameRoom.canGo_congr htilemap hcells
    rw [hcells] at hc hdest hcells'
    rw [findPath_congr hgo'] at hpath
    rw [hgo'] at hgo
    exact .stepped hc hdest hpath hgo (htilemap'.trans htilemap) hcells'

/-! ## The setters -/

theorem setState_cells {state : Int32} {announce : Bool} (h : Registry w)
    (hok : setState P (.monster id) state announce w = .ok w') :
    w'.room.tilemap = w.room.tilemap ∧ w'.room.cells = w.room.cells := by
  have hset : (w.modifyInfo (.monster id) (·.setState state)).room.cells = w.room.cells :=
    GameRoom.cells_modifyMonster_of_cell fun _ => rfl
  rcases setState_cases hok with rfl | rfl | hsay
  · exact ⟨rfl, rfl⟩
  · exact ⟨rfl, hset⟩
  · have h₁ : Registry (w.modifyInfo (.monster id) (·.setState state)) :=
      h.modifyInfo fun _ => ⟨rfl, rfl⟩
    rw [broadcastMove_room h₁ hsay]
    exact ⟨rfl, hset⟩

theorem setState_stood {state : Int32} {announce : Bool} (h : Registry w)
    (hok : setState P (.monster id) state announce w = .ok w') : Stood w.room w'.room :=
  .of_cells (setState_cells h hok).1 (setState_cells h hok).2

/-! ## The three states -/

theorem updateMove_stood (h : Registry w) (hok : updateMove P now id w = .ok w') :
    Stood w.room w'.room := by
  rcases updateMove_cases hok with rfl | ⟨-, -, -, hstate⟩
  · exact .refl _
  · exact setState_stood h hstate

theorem strike_stood {m : Monster} (h : Registry w) (hok : strike P id m w = .ok w') :
    Stood w.room w'.room := by
  have htarget : ∀ w₁ : World, Stood w₁.room (w₁.setTarget id none).room := fun _ =>
    .modifyMonster fun _ => rfl
  rcases strike_cases hok with (rfl | rfl) | ⟨self, targetId, -, w₁, -, -, -, hhit, rfl | rfl⟩
  · exact .refl _
  · exact htarget w
  · exact .of_hit (applyDamage_ok h hhit)
  · exact (Stood.of_hit (applyDamage_ok h hhit)).trans (htarget w₁)

theorem updateSkill_stood (h : Registry w) (hok : updateSkill P now id w = .ok w') :
    Stood w.room w'.room := by
  rcases updateSkill_cases hok with rfl | ⟨m, w₁, w₂, -, -, hstate, hstrike, hsay⟩
  · exact .refl _
  · have h₁ := (setState_silent_edits hstate).registry h
    have hstrike' : Stood w₁.room w₂.room ∧ Registry w₂ := by
      rcases hstrike with rfl | ⟨-, hstrike⟩
      · exact ⟨.refl _, h₁⟩
      · exact ⟨strike_stood h₁ hstrike, (strike_edits h₁ hstrike).registry h₁⟩
    rw [broadcastMove_room hstrike'.2 hsay]
    exact (setState_stood h hstate).trans hstrike'.1

theorem followPath_turn {m : Monster} {pid : ObjectId} {dest : Vec2Int} {path : List Vec2Int}
    (h : Registry w) (hm : w.room.monsters[id]? = some m)
    (hdest : w.room.cells (.player pid) = some dest)
    (hpath : findPath P.pq w.room m.info.getCellPos dest fuel = some (some path))
    (hok : followPath P now id m.info path w = .ok w') :
    Turn P.pq fuel id w.room w'.room := by
  have hinfo : w.room.info? (.monster id) = some m.info := GameRoom.info?_of_monster hm
  rcases followPath_cases hok with rfl | ⟨pos, rfl, rfl⟩ | ⟨src, nextPos, rest, rfl, hgo, hstate⟩
  · exact .stood (.refl _)
  · obtain rfl := findPath_singleton hpath
    refine .stood (.of_cells rfl ?_)
    exact GameRoom.cells_modifyInfo_of_cell hinfo rfl
  · obtain ⟨d, hway⟩ := findPath_isWay hpath
    obtain rfl : src = m.info.getCellPos := by simpa using hway.head?_eq
    obtain ⟨htilemap, hcells⟩ := setState_cells (h.stepped id _ nextPos now) hstate
    refine .stepped (GameRoom.cells_of_info? hinfo) hdest hpath hgo htilemap (hcells.trans ?_)
    rw [World.stepped_eq]
    exact GameRoom.cells_modifyMonster hm

theorem updateIdle_turn (h : Registry w) (hok : updateIdle P fuel now id w = .ok w') :
    Turn P.pq fuel id w.room w'.room := by
  have hcells : ∀ target, (w.setTarget id target).room.cells = w.room.cells := fun _ =>
    GameRoom.cells_modifyMonster_of_cell fun _ => rfl
  have htarget : ∀ target, Stood w.room (w.setTarget id target).room := fun target =>
    .of_cells rfl (hcells target)
  cases updateIdle_cases hok with
  | absent hw => exact hw ▸ .stood (.refl _)
  | @stays target hw => exact hw ▸ .stood (htarget target)
  | @aims m target pid player w₂ hm hroom hlock hstate hw =>
    have hdir := (h.setTarget id target).setDir id (m.info.getLookAtDir player.info.getCellPos)
    have hturned : Stood (w.setTarget id target).room ((w.setTarget id target).setDir (.monster id)
        (m.info.getLookAtDir player.info.getCellPos)).room := .modifyMonster fun _ => rfl
    have hwaited : Stood w₂.room (w₂.wait id now).room := .modifyMonster fun _ => rfl
    have haimed := ((htarget target).trans hturned).trans (setState_stood hdir hstate)
    rw [hw]
    exact .stood (haimed.trans hwaited)
  | @follows m target pid player path hm hroom hlock hpath hfollow =>
    have hm₁ : (w.setTarget id target).room.monsters[id]? = some { m with target := target } :=
      World.getElem?_modifyMonster hm _
    have hplayer : (w.setTarget id target).room.cells (.player pid) =
        some player.info.getCellPos :=
      GameRoom.cells_of_info? (GameRoom.info?_of_player (GameRoom.lock_eq_some hlock).2)
    exact (followPath_turn (h.setTarget id target) hm₁ hplayer hpath hfollow).of_cells
      (htarget target).tilemap (hcells target)

/-- **A turn of a monster.** -/
theorem updateMonster_turn (h : Registry w) (hok : updateMonster P fuel now id w = .ok w') :
    Turn P.pq fuel id w.room w'.room := by
  rcases updateMonster_cases hok with rfl | ⟨info, -, ⟨-, hok⟩ | ⟨-, hok⟩ | ⟨-, hok⟩⟩
  · exact .stood (.refl _)
  · exact updateIdle_turn h hok
  · exact .stood (updateMove_stood h hok)
  · exact .stood (updateSkill_stood h hok)

/-! ## What a turn keeps -/

/-- The monster keeps its cell, or steps to a neighbour that is inside the map, walkable and free;
all other monsters keep theirs, and none comes or goes. -/
structure SafeTurn (id : ObjectId) (r r' : GameRoom) : Prop where
  mem_monsters : ∀ k, k ∈ r'.monsters ↔ k ∈ r.monsters
  others : ∀ k, k ≠ id → r'.cells (.monster k) = r.cells (.monster k)
  own : r'.cells (.monster id) = r.cells (.monster id) ∨
    ∃ c next, r.cells (.monster id) = some c ∧ r'.cells (.monster id) = some next ∧
      c.gap next = 1 ∧ r.tilemap.Inside next ∧ r.tilemap.Walkable next ∧
      ∀ ref, r.cells ref ≠ some next

theorem mem_monsters_congr (h : ∀ k, r'.cells (.monster k) = r.cells (.monster k)) (k : ObjectId) :
    k ∈ r'.monsters ↔ k ∈ r.monsters := by
  rw [← not_iff_not, ← GameRoom.cells_monster_eq_none, h, GameRoom.cells_monster_eq_none]

/-- The first step of a path. -/
theorem steps_of_findPath {dest next : Vec2Int} {rest : List Vec2Int}
    (h : findPath Q r c dest fuel = some (some (c :: next :: rest))) : Steps r c 10 c next := by
  obtain ⟨d, hway⟩ := findPath_isWay h
  exact (List.isChain_cons_cons.1 hway.isChain).1

theorem Turn.safe (h : Turn Q fuel id r r') : SafeTurn id r r' := by
  cases h with
  | stood hstood =>
    exact ⟨mem_monsters_congr hstood.monster, fun k _ => hstood.monster k,
      .inl (hstood.monster id)⟩
  | @stepped c dest next rest pid hc hdest hpath hgo htilemap hcells =>
    have hstep := steps_of_findPath hpath
    obtain ⟨hstand, hfree⟩ := GameRoom.canGo_iff_cells.1 hgo
    have hother : ∀ k, k ≠ id → r'.cells (.monster k) = r.cells (.monster k) := by
      intro k hk
      rw [hcells, Function.update_of_ne (by simpa using hk)]
    have hself : r'.cells (.monster id) = some next := by rw [hcells, Function.update_self]
    refine ⟨fun k => ?_, hother, .inr ⟨c, next, hc, hself, gap_of_steps hstep, hstand.1,
      hstand.2, hfree⟩⟩
    rw [← not_iff_not, ← GameRoom.cells_monster_eq_none, ← GameRoom.cells_monster_eq_none]
    by_cases hk : k = id
    · rw [hk, hself, hc]
      simp
    · rw [hother k hk]

/-- Turns one after another, each safe in the room as the ones before have left it. -/
inductive SafeTurns : List ObjectId → GameRoom → GameRoom → Prop
  | nil (r : GameRoom) : SafeTurns [] r r
  | cons {id : ObjectId} {ids : List ObjectId} {r r' r'' : GameRoom} (hturn : SafeTurn id r r')
      (hrest : SafeTurns ids r' r'') : SafeTurns (id :: ids) r r''

theorem updateFrom_safe {ids : List ObjectId} (h : Registry w)
    (hok : updateFrom P fuel clock ids w = .ok w') : SafeTurns ids w.room w'.room := by
  induction ids generalizing w with
  | nil =>
    cases hok
    exact .nil _
  | cons id ids ih =>
    rcases updateFrom_cons_cases hok with hrest | ⟨w₁, hid, hrest⟩
    · have hstood : Turn P.pq fuel id w.room w.room := .stood (.refl _)
      exact .cons hstood.safe (ih h hrest)
    · have hturn := (updateMonster_turn h hid).safe
      exact .cons hturn (ih ((updateMonster_edits h hid).registry h) hrest)

end Zelda.Server
