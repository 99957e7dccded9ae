import Zelda.Foundations.Placement
import Zelda.Server.Runs

/-!
# Who stands where

`CellsOk` says that no two objects of the room share a cell and that every object stands inside the
map on a walkable tile. Monsters ask `CanGo` before they step, so the update of the room keeps it.
`Handle_C_Move` and `EnterRoom` do not ask: a move keeps it exactly when the packet names a cell
that the object is on already or could go to, and an entry exactly when nobody stands on the spawn
cell (`Validated`, `cells_of_run`).
-/

namespace Zelda.Server

open Protocol Std

variable {P : Platform} {w w' : World} {s : SessionId} {ref : ObjectRef} {info : ObjectInfo}
  {pkt : CMove} {tilemap : Tilemap} {c : Vec2Int}

/-! ## The cells of a room -/

namespace GameRoom

variable {r : GameRoom}

/-- The cell of every object. -/
def cells (r : GameRoom) (ref : ObjectRef) : Option Vec2Int := (r.info? ref).map (·.getCellPos)

/-- A cell that objects may stand on. -/
def Standable (r : GameRoom) (c : Vec2Int) : Prop := r.tilemap.Inside c ∧ r.tilemap.Walkable c

theorem cells_of_info? (h : r.info? ref = some info) : r.cells ref = some info.getCellPos := by
  rw [cells, h, Option.map_some]

theorem cells_eq_some : r.cells ref = some c ↔ ∃ info, r.info? ref = some info ∧
    info.getCellPos = c := Option.map_eq_some_iff

theorem canGo_iff_cells : r.canGo c = true ↔ r.Standable c ∧ ∀ ref, r.cells ref ≠ some c := by
  rw [canGo_iff]
  constructor
  · rintro ⟨hwalk, hfree⟩
    refine ⟨⟨hwalk.inside, hwalk⟩, fun ref hc => ?_⟩
    obtain ⟨info, hinfo, hcell⟩ := cells_eq_some.1 hc
    exact hfree ref info hinfo hcell
  · rintro ⟨hstand, hfree⟩
    refine ⟨hstand.2, fun ref info hinfo hcell => hfree ref ?_⟩
    exact cells_eq_some.2 ⟨info, hinfo, hcell⟩

theorem cells_modifyInfo {f : ObjectInfo → ObjectInfo} (h : r.info? ref = some info) :
    (r.modifyInfo ref f).cells = Function.update r.cells ref (some (f info).getCellPos) := by
  funext ref'
  rw [cells, info?_modifyInfo]
  split
  · rename_i href
    rw [href, Function.update_self, h]
    rfl
  · rename_i hne
    rw [Function.update_of_ne hne, cells]

theorem cells_modifyInfo_of_cell {f : ObjectInfo → ObjectInfo} (h : r.info? ref = some info)
    (hcell : (f info).getCellPos = info.getCellPos) : (r.modifyInfo ref f).cells = r.cells := by
  rw [cells_modifyInfo h, hcell, ← cells_of_info? h, Function.update_eq_self]

theorem cells_modifyMonster {id : ObjectId} {m : Monster} {f : Monster → Monster}
    (h : r.monsters[id]? = some m) : (r.modifyMonster id f).cells =
      Function.update r.cells (.monster id) (some (f m).info.getCellPos) := by
  funext ref'
  rw [cells, info?_modifyMonster]
  split
  · rename_i href
    rw [href, Function.update_self, h]
    rfl
  · rename_i hne
    rw [Function.update_of_ne hne, cells]

theorem standable_modifyInfo {f : ObjectInfo → ObjectInfo} :
    (r.modifyInfo ref f).Standable = r.Standable := by
  funext c
  rw [Standable, tilemap_modifyInfo, Standable]

theorem standable_erase : (r.erase ref).Standable = r.Standable := by
  funext c
  rw [Standable, tilemap_erase, Standable]

theorem cells_erase_le {ref' : ObjectRef} (h : (r.erase ref).cells ref' = some c) :
    r.cells ref' = some c := by
  rw [cells, info?_erase] at h
  split at h
  · cases h
  · exact h

theorem update_cells_self (h : r.cells ref = some c) :
    Function.update r.cells ref (some c) = r.cells := by
  rw [← h, Function.update_eq_self]

/-- Players come before monsters: where a monster is found, no player stands. -/
theorem no_player_of_getGameObjectAt {id pid : ObjectId}
    (h : r.getGameObjectAt c = some (.monster id)) : r.cells (.player pid) ≠ some c := by
  intro hc
  obtain ⟨info, hinfo, hcell⟩ := cells_eq_some.1 hc
  rw [getGameObjectAt, refs, List.find?_append, Option.or_eq_some_iff] at h
  rcases h with hplayer | ⟨hnone, -⟩
  · obtain ⟨_, -, heq⟩ := List.mem_map.1 (List.mem_of_find?_eq_some hplayer)
    cases heq
  · rw [List.find?_eq_none] at hnone
    refine hnone (.player pid) ?_ ?_
    · rw [List.mem_map]
      exact ⟨pid, ExtTreeMap.mem_keys.2 (registered_player.1 (registered_of_info? hinfo)), rfl⟩
    · rw [hinfo, Option.any_some, decide_eq_true hcell]

end GameRoom

/-- No two objects share a cell, and every object stands inside the map on a walkable tile. -/
def CellsOk (w : World) : Prop := Exclusive w.room.Standable w.room.cells

theorem CellsOk.of_quiet {evs : List Event} (h : CellsOk w) (hq : Quiet w w' evs) : CellsOk w' := by
  rw [CellsOk, hq.room]
  exact h

theorem CellsOk.erase (h : CellsOk w) (ref : ObjectRef) : CellsOk (w.erase ref) := by
  rw [CellsOk, World.room_erase, GameRoom.standable_erase]
  exact h.mono fun _ _ => GameRoom.cells_erase_le

/-- An object is put on a cell: the one it is on, or one that it can go to. -/
theorem CellsOk.put (h : CellsOk w)
    (hc : w.room.cells ref = some c ∨ w.room.canGo c = true) :
    Exclusive w.room.Standable (Function.update w.room.cells ref (some c)) := by
  rcases hc with hself | hgo
  · rw [GameRoom.update_cells_self hself]
    exact h
  · obtain ⟨hstand, hfree⟩ := GameRoom.canGo_iff_cells.1 hgo
    exact h.update_iff.2 ⟨hstand, fun ref' _ => hfree ref'⟩

/-- Exactly then, if the object was there before. -/
theorem CellsOk.put_iff (h : CellsOk w) (hi : w.room.info? ref = some info) :
    Exclusive w.room.Standable (Function.update w.room.cells ref (some c)) ↔
      info.getCellPos = c ∨ w.room.canGo c = true := by
  have hself : w.room.cells ref = some info.getCellPos := GameRoom.cells_of_info? hi
  constructor
  · intro h'
    obtain ⟨hstand, hfree⟩ := h.update_iff.1 h'
    by_cases hcell : info.getCellPos = c
    · exact .inl hcell
    · refine .inr (GameRoom.canGo_iff_cells.2 ⟨hstand, fun ref' => ?_⟩)
      rcases eq_or_ne ref' ref with rfl | hne
      · rw [hself]
        exact fun heq => hcell (Option.some.inj heq)
      · exact hfree ref' hne
  · rintro (rfl | hgo)
    · exact h.put (.inl hself)
    · exact h.put (.inr hgo)

/-! ## Edits -/

theorem CellsOk.modifyMonster (h : CellsOk w) {id : ObjectId} {m : Monster} {f : Monster → Monster}
    (hm : w.room.monsters[id]? = some m) (hcell : (f m).info.getCellPos = m.info.getCellPos ∨
      w.room.canGo (f m).info.getCellPos = true) : CellsOk (w.modifyMonster id f) := by
  have hi : w.room.info? (.monster id) = some m.info := GameRoom.info?_of_monster hm
  rw [CellsOk, World.room_modifyMonster, GameRoom.cells_modifyMonster hm]
  apply h.put
  rw [GameRoom.cells_of_info? hi, Option.some.injEq]
  exact hcell.imp_left Eq.symm

/-- Monsters step only where they can go, and nobody else changes cells. -/
theorem Edit.cellsOk (he : Edit w w') (h : CellsOk w) : CellsOk w' := by
  cases he with
  | skill | damage => exact h
  | hurt _ hv _ hq =>
    refine CellsOk.of_quiet ?_ hq
    rw [CellsOk, World.room_modifyInfo, GameRoom.standable_modifyInfo,
      GameRoom.cells_modifyInfo_of_cell hv rfl]
    exact h
  | erase _ hq => exact (h.erase _).of_quiet hq
  | think hm _ _ hcell => exact h.modifyMonster hm (.inl hcell)
  | act hm _ hcell hq => exact (h.modifyMonster hm hcell).of_quiet hq
  | announce _ hq => exact h.of_quiet hq

theorem Edits.cellsOk (he : Edits w w') (h : CellsOk w) : CellsOk w' := by
  induction he with
  | refl => exact h
  | tail _ he ih => exact he.cellsOk ih

/-! ## Moves -/

/-- An attack moves nobody, and takes nobody away from a cell on which a player stands. -/
theorem Attack.cells (ha : Attack ref w w') (hr : Registry w) :
    w'.room.Standable = w.room.Standable ∧ ∀ ref' c, w.room.cells ref' = some c →
      w'.room.cells ref' = some c ∨
        (∃ pid, ref = .player pid) ∧ ∀ pid, w.room.cells (.player pid) ≠ some c := by
  cases ha with
  | none | missed => exact ⟨rfl, fun _ _ hc => .inl hc⟩
  | @hit p id w' hp htype hfound hhit =>
    cases hhit with
    | missed => exact ⟨rfl, fun _ _ hc => .inl hc⟩
    | @hurt a v w' _ hv _ hq =>
      rw [hq.room, World.room_modifyInfo, World.room_log]
      refine ⟨GameRoom.standable_modifyInfo, fun ref' c hc => .inl ?_⟩
      rw [GameRoom.cells_modifyInfo_of_cell hv rfl]
      exact hc
    | killed _ hv _ hq =>
      rw [hq.room, World.room_erase, World.room_log]
      refine ⟨GameRoom.standable_erase, fun ref' c hc => ?_⟩
      by_cases href : ref' = .monster id
      · -- the victim stood on the cell in front, where no player is
        obtain ⟨t, ht, hfront⟩ := GameRoom.getGameObjectAt_eq_some hfound
        rw [href, GameRoom.cells_of_info? ht, hfront] at hc
        obtain rfl := Option.some.inj hc
        refine .inr ⟨?_, fun pid => GameRoom.no_player_of_getGameObjectAt hfound⟩
        cases ref with
        | player pid => exact ⟨pid, rfl⟩
        | monster mid =>
          have hne : objectTypeMonster ≠ objectTypePlayer := by decide
          exact absurd ((hr.objecttype hp).symm.trans htype) hne
      · left
        rw [GameRoom.cells, GameRoom.info?_erase, if_neg href]
        exact hc

/-- The cell the packet names is the one its object is on, or one that it can go to. -/
def MoveAllowed (w : World) (pkt : CMove) : Prop :=
  ∀ ref info, w.room.findObject pkt.info.objectid = some ref → w.room.info? ref = some info →
    info.getCellPos = pkt.info.getCellPos ∨ w.room.canGo pkt.info.getCellPos = true

theorem Moved.cellsOk_iff (hm : Moved pkt w w') (hr : Registry w) (h : CellsOk w) :
    CellsOk w' ↔ MoveAllowed w pkt := by
  cases hm with
  | absent hfind =>
    refine ⟨fun _ ref info hsome => ?_, fun _ => h⟩
    cases hfind.symm.trans hsome
  | @moved ref prev w₁ _ hfind hprev hattack _ hq =>
    have hallowed : MoveAllowed w pkt ↔ prev.getCellPos = pkt.info.getCellPos ∨
        w.room.canGo pkt.info.getCellPos = true := by
      refine ⟨fun hall => hall ref prev hfind hprev, fun hcell ref' info hfind' hinfo => ?_⟩
      obtain rfl := Option.some.inj (hfind.symm.trans hfind')
      obtain rfl := Option.some.inj (hprev.symm.trans hinfo)
      exact hcell
    have hcells : (w.modifyInfo ref (moveInfo pkt)).room.cells =
        Function.update w.room.cells ref (some pkt.info.getCellPos) := by
      rw [World.room_modifyInfo, GameRoom.cells_modifyInfo hprev, moveInfo_getCellPos]
    have hstand : (w.modifyInfo ref (moveInfo pkt)).room.Standable = w.room.Standable :=
      GameRoom.standable_modifyInfo
    rw [hallowed, ← h.put_iff hprev]
    constructor
    · intro h'
      have h₁ : CellsOk w₁ := by rwa [CellsOk, ← hq.room]
      obtain ⟨hstand₁, hkeep⟩ := hattack.cells hr.moveInfo
      have hself : (w.modifyInfo ref (moveInfo pkt)).room.cells ref =
          some pkt.info.getCellPos := by rw [hcells, Function.update_self]
      -- whoever stands on the new cell is still there after the attack
      have hthere : ∀ ref', (w.modifyInfo ref (moveInfo pkt)).room.cells ref' =
          some pkt.info.getCellPos → w₁.room.cells ref' = some pkt.info.getCellPos := by
        intro ref' hc
        rcases hkeep ref' _ hc with hc | ⟨⟨pid, rfl⟩, hno⟩
        · exact hc
        · exact absurd hself (hno pid)
      refine h.update_iff.2 ⟨?_, fun ref' hne hc => hne ?_⟩
      · rw [← hstand, ← hstand₁]
        exact h₁.allowed (hthere ref hself)
      · refine h₁.injective (hthere ref' ?_) (hthere ref hself)
        rw [hcells, Function.update_of_ne hne, hc]
    · intro hput
      have h₀ : CellsOk (w.modifyInfo ref (moveInfo pkt)) := by
        rw [CellsOk, hcells, hstand]
        exact hput
      exact (hattack.edits.cellsOk h₀).of_quiet hq

/-! ## Entries -/

/-- The cell on which `EnterRoom` puts players. -/
def spawnCell : Vec2Int := ⟨5, 5⟩

theorem Entered.cellsOk_iff (he : Entered s w w') (hr : Registry w) (h : CellsOk w)
    (hspawn : w.room.tilemap.Walkable spawnCell) :
    CellsOk w' ↔ w.room.getGameObjectAt spawnCell = none := by
  have hcells : w'.room.cells =
      Function.update w.room.cells (.player w.idGenerator) (some spawnCell) := by
    funext ref
    rw [GameRoom.cells, he.info?]
    split
    · rename_i href
      rw [href, Function.update_self]
      rfl
    · rename_i hne
      rw [Function.update_of_ne hne, GameRoom.cells]
  have hfresh : w.room.cells (.player w.idGenerator) ≠ some spawnCell := by
    intro hc
    obtain ⟨info, hinfo, -⟩ := GameRoom.cells_eq_some.1 hc
    exact absurd (hr.lt_idGenerator (GameRoom.registered_of_info? hinfo)) (lt_irrefl _)
  have hstand : w'.room.Standable = w.room.Standable := by
    rw [he.room_eq]
    rfl
  rw [CellsOk, hstand, hcells, h.update_iff, GameRoom.getGameObjectAt_eq_none]
  constructor
  · rintro ⟨-, hfree⟩ ref info hinfo hcell
    have hc : w.room.cells ref = some spawnCell := GameRoom.cells_eq_some.2 ⟨info, hinfo, hcell⟩
    exact hfree ref (fun href => hfresh (href ▸ hc)) hc
  · intro hfree
    refine ⟨⟨hspawn.inside, hspawn⟩, fun ref _ hc => ?_⟩
    obtain ⟨info, hinfo, hcell⟩ := GameRoom.cells_eq_some.1 hc
    exact hfree ref info hinfo hcell

/-! ## Every run -/

theorem Edit.tilemap_eq (he : Edit w w') : w'.room.tilemap = w.room.tilemap := by
  cases he with
  | skill | damage | think => rfl
  | hurt _ _ _ hq => rw [hq.room, World.room_modifyInfo, GameRoom.tilemap_modifyInfo]
  | erase _ hq => rw [hq.room, World.room_erase, GameRoom.tilemap_erase]
  | act _ _ _ hq => rw [hq.room]; rfl
  | announce _ hq => rw [hq.room]

theorem Edits.tilemap_eq (he : Edits w w') : w'.room.tilemap = w.room.tilemap := by
  induction he with
  | refl => rfl
  | tail _ he ih => exact he.tilemap_eq.trans ih

/-- The room keeps its map. -/
theorem RoomStep.tilemap_eq {ev : RoomEvent} (hs : RoomStep P w ev w') (hr : Registry w) :
    w'.room.tilemap = w.room.tilemap := by
  cases hs with
  | enterRoom hnew hok =>
    rw [(enterRoom_ok hr hnew hok).room_eq]
    rfl
  | leaveRoom hok => exact (leaveRoom_edits hr hok).tilemap_eq
  | handleCMove hok =>
    cases handleCMove_ok hr hok with
    | absent => rfl
    | moved _ _ hattack _ hq =>
      rw [hq.room, hattack.edits.tilemap_eq, World.room_modifyInfo, GameRoom.tilemap_modifyInfo]
  | update hok => exact (update_edits hr hok).tilemap_eq

/-- What `EnterRoom` and `Handle_C_Move` would have to ask before they put an object on a cell. -/
def Validated (w : World) : RoomEvent → Prop
  | .enterRoom _ => w.room.getGameObjectAt spawnCell = none
  | .handleCMove pkt => MoveAllowed w pkt
  | _ => True

/-- The operations that do not validate anything keep the cells in order exactly when there was
nothing to object to. -/
theorem RoomStep.cellsOk_iff {ev : RoomEvent} (hs : RoomStep P w ev w') (hr : Registry w)
    (h : CellsOk w) (hspawn : w.room.tilemap.Walkable spawnCell) :
    CellsOk w' ↔ Validated w ev := by
  cases hs with
  | enterRoom hnew hok => exact (enterRoom_ok hr hnew hok).cellsOk_iff hr h hspawn
  | leaveRoom hok => exact iff_of_true ((leaveRoom_edits hr hok).cellsOk h) trivial
  | handleCMove hok => exact (handleCMove_ok hr hok).cellsOk_iff hr h
  | update hok => exact iff_of_true ((update_edits hr hok).cellsOk h) trivial

theorem cellsOk_init (h : tilemap.Walkable firstMonster.info.getCellPos) :
    CellsOk (World.init tilemap) where
  allowed hc := by
    obtain ⟨info, hinfo, rfl⟩ := GameRoom.cells_eq_some.1 hc
    obtain ⟨-, rfl⟩ := info?_init hinfo
    exact ⟨h.inside, h⟩
  injective hc hc' := by
    obtain ⟨info, hinfo, -⟩ := GameRoom.cells_eq_some.1 hc
    obtain ⟨info', hinfo', -⟩ := GameRoom.cells_eq_some.1 hc'
    exact (info?_init hinfo).1.trans (info?_init hinfo').1.symm

/-- **In every run whose entries and moves are valid, no two objects share a cell and every object
stands inside the map on a walkable tile**; an entry or a move that is not valid breaks this. -/
theorem cells_of_run (hspawn : tilemap.Walkable spawnCell)
    (hmonster : tilemap.Walkable firstMonster.info.getCellPos)
    (h : Reaches (RoomStep P) Validated (World.init tilemap) w) :
    (∀ ref info, w.room.info? ref = some info →
      tilemap.Inside info.getCellPos ∧ tilemap.Walkable info.getCellPos) ∧
    (∀ ref ref' info info', w.room.info? ref = some info → w.room.info? ref' = some info' →
      info.getCellPos = info'.getCellPos → ref = ref') ∧
    ∀ ev w', RoomStep P w ev w' → (CellsOk w' ↔ Validated w ev) := by
  have hall : Registry w ∧ CellsOk w ∧ w.room.tilemap = tilemap := by
    refine h.invariant (I := fun w => Registry w ∧ CellsOk w ∧ w.room.tilemap = tilemap) ?_
      ⟨registry_init tilemap, cellsOk_init hmonster, rfl⟩
    rintro w₁ ev w₂ ⟨hr, hok, hmap⟩ hC hs
    have hspawn₁ : w₁.room.tilemap.Walkable spawnCell := hmap ▸ hspawn
    exact ⟨hs.registry hr, (hs.cellsOk_iff hr hok hspawn₁).2 hC, (hs.tilemap_eq hr).trans hmap⟩
  obtain ⟨hr, hok, hmap⟩ := hall
  refine ⟨fun ref info hi => ?_, fun ref ref' info info' hi hi' hcell => ?_, fun ev w' hs => ?_⟩
  · rw [← hmap]
    exact hok.allowed (GameRoom.cells_of_info? hi)
  · apply hok.injective (GameRoom.cells_of_info? hi)
    rw [GameRoom.cells_of_info? hi', hcell]
  · exact hs.cellsOk_iff hr hok (hmap ▸ hspawn)

/-! ## A move onto another object -/

/-- A map of 10 × 10 walkable tiles. -/
def openMap : Tilemap := ⟨⟨10, 10⟩, List.replicate 10 (List.replicate 10 {})⟩

/-- The move of the first player to the cell of the first monster. -/
def moveOntoMonster : CMove := ⟨(enteringPlayer 2 0).info.setCellPos ⟨8, 8⟩⟩

theorem walkable_openMap : openMap.Walkable spawnCell ∧
    openMap.Walkable firstMonster.info.getCellPos :=
  ⟨⟨{}, rfl, rfl⟩, ⟨{}, rfl, rfl⟩⟩

/-- The room after that move. -/
def afterMove : World :=
  Result.world (handleCMove (.always .accepted) moveOntoMonster (afterEnter openMap))

theorem roomStep_afterMove :
    RoomStep (.always .accepted) (afterEnter openMap) (.handleCMove moveOntoMonster) afterMove :=
  .handleCMove rfl

/-- The first player moves onto the monster, on a map on which both spawn cells are walkable. -/
theorem not_cellsOk_moveOntoMonster :
    RoomReachable (.always .accepted) openMap afterMove ∧ ¬ CellsOk afterMove := by
  refine ⟨.tail (.single trivial (roomStep_afterEnter openMap)) trivial roomStep_afterMove, ?_⟩
  intro h
  have hplayer : ObjectRef.player 2 = .monster 1 :=
    h.injective (c := ⟨8, 8⟩) (by decide) (by decide)
  cases hplayer

theorem cells_afterEnter :
    openMap.Inside (enteringPlayer 2 0).info.getCellPos ∧
      openMap.Walkable (enteringPlayer 2 0).info.getCellPos := by
  have hrun : Reaches (RoomStep (.always .accepted)) Validated (World.init openMap)
      (afterEnter openMap) :=
    .single (e := .enterRoom 0) (by decide : (World.init openMap).room.getGameObjectAt _ = none)
      (roomStep_afterEnter openMap)
  exact (cells_of_run walkable_openMap.1 walkable_openMap.2 hrun).1 (.player 2) _ rfl

end Zelda.Server
