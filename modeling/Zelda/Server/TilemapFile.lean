import Mathlib.Data.List.GetD
import Zelda.Foundations.TextStream
import Zelda.Server.Tilemap

/-!
# Loading a tilemap

`Tilemap::LoadFile` reads the size with `>>` and then takes every digit in the rest of the file:
first the values row by row, then the walkable flags, with defaults where the digits run out. The
classes `Tilemap` of the server and of the client have the same text.

Main lemma: `loadFile_of_layers`, what is loaded from a size and two layers of digits.
-/

namespace Zelda.Server.Tilemap

open TextStream

variable {m m' : Tilemap} {pos : Vec2Int} {f : Tile → Tile}

/-- `_tiles[y][x]` -/
def tile (m : Tilemap) (y x : ℕ) : Tile := (m.tiles.getD y []).getD x {}

/-- The rows of a map with the given tiles. -/
def rows (size : Vec2Int) (f : ℕ → ℕ → Tile) : List (List Tile) :=
  (List.range size.y.toInt.toNat).map fun y => (List.range size.x.toInt.toNat).map (f y)

/-- `Tilemap::SetMapSize`; `none` when a vector with a negative length is asked for, which throws.
-/
def setMapSize (m : Tilemap) (size : Vec2Int) : Option Tilemap :=
  if size.x < 0 ∨ size.y < 0 then none
  else some { m with mapSize := size, tiles := rows size fun _ _ => ⟨0, true⟩ }

/-- What `LoadFile` makes of the digits for one tile. -/
def loadTile (size : Vec2Int) (rawValues : List Int32) (y x : ℕ) : Tile :=
  let totalTiles := size.x.toInt.toNat * size.y.toInt.toNat
  let index := y * size.x.toInt.toNat + x
  let value := if index < rawValues.length then rawValues.getD index 0 else 0
  let walkableIndex := totalTiles + index
  { value := value
    walkable :=
      if walkableIndex < rawValues.length then rawValues.getD walkableIndex 0 ≠ 0 else value = 0 }

/-- `Tilemap::LoadFile`, given the text of the file or `none` if it cannot be opened. The result is
`none` where `SetMapSize` throws. -/
def loadFile (m : Tilemap) (file : Option (List Char)) : Option Tilemap :=
  match file with
  | none => some m
  | some text =>
    let (x, ifs) := InStream.getInt ⟨text, false⟩ m.mapSize.x
    let (y, ifs) := ifs.getInt m.mapSize.y
    let rawValues := digitValues ifs.getAll
    (m.setMapSize ⟨x, y⟩).map fun m => { m with tiles := rows m.mapSize (loadTile m.mapSize rawValues) }

/-- Writes to the tile behind the pointer that `GetTileAt` returned. -/
def modifyTile (m : Tilemap) (pos : Vec2Int) (f : Tile → Tile) : Tilemap :=
  { m with tiles := m.tiles.modify pos.y.toInt.toNat (·.modify pos.x.toInt.toNat f) }

/-! ## The shape of a map -/

/-- There is a tile for every cell. -/
structure Shaped (m : Tilemap) : Prop where
  nonneg_x : 0 ≤ m.mapSize.x.toInt
  nonneg_y : 0 ≤ m.mapSize.y.toInt
  height : m.tiles.length = m.mapSize.y.toInt.toNat
  width : ∀ row ∈ m.tiles, row.length = m.mapSize.x.toInt.toNat

theorem length_rows (size : Vec2Int) (f : ℕ → ℕ → Tile) :
    (rows size f).length = size.y.toInt.toNat := by rw [rows, List.length_map, List.length_range]

theorem length_of_mem_rows {size : Vec2Int} {f : ℕ → ℕ → Tile} {row : List Tile}
    (h : row ∈ rows size f) : row.length = size.x.toInt.toNat := by
  obtain ⟨y, -, rfl⟩ := List.mem_map.1 h
  rw [List.length_map, List.length_range]

/-- A map of the right shape is what its tiles make it. -/
theorem Shaped.rows_tile (h : m.Shaped) : rows m.mapSize m.tile = m.tiles := by
  refine List.ext_getElem (by rw [length_rows, h.height]) fun y hy hy' => ?_
  have hrow := h.width _ (List.getElem_mem hy')
  simp only [rows, List.getElem_map, List.getElem_range]
  refine List.ext_getElem (by rw [List.length_map, List.length_range, hrow]) fun x hx hx' => ?_
  rw [List.getElem_map, List.getElem_range, tile, List.getD_eq_getElem _ _ hy',
    List.getD_eq_getElem _ _ hx']

theorem shaped_of_rows {f : ℕ → ℕ → Tile} (hx : 0 ≤ m.mapSize.x.toInt) (hy : 0 ≤ m.mapSize.y.toInt)
    (h : m.tiles = rows m.mapSize f) : m.Shaped where
  nonneg_x := hx
  nonneg_y := hy
  height := by rw [h, length_rows]
  width row hrow := length_of_mem_rows (h ▸ hrow)

theorem setMapSize_eq_some {size : Vec2Int} (h : m.setMapSize size = some m') :
    (0 ≤ size.x.toInt ∧ 0 ≤ size.y.toInt) ∧
      m' = { m with mapSize := size, tiles := rows size fun _ _ => ⟨0, true⟩ } := by
  unfold setMapSize at h
  split at h
  · cases h
  · rename_i hneg
    simp only [not_or, Int32.not_lt, Int32.le_iff_toInt_le, Int32.toInt_zero] at hneg
    exact ⟨hneg, (Option.some.inj h).symm⟩

theorem setMapSize_of_nonneg (m : Tilemap) {size : Vec2Int} (hx : 0 ≤ size.x.toInt)
    (hy : 0 ≤ size.y.toInt) : m.setMapSize size =
      some { m with mapSize := size, tiles := rows size fun _ _ => ⟨0, true⟩ } := by
  rw [setMapSize, if_neg]
  simp only [not_or, Int32.not_lt, Int32.le_iff_toInt_le, Int32.toInt_zero]
  exact ⟨hx, hy⟩

theorem Shaped.modifyTile (h : m.Shaped) : (m.modifyTile pos f).Shaped where
  nonneg_x := h.nonneg_x
  nonneg_y := h.nonneg_y
  height := by rw [Tilemap.modifyTile, List.length_modify, h.height]
  width row hrow := by
    obtain ⟨y, hy, rfl⟩ := List.getElem_of_mem hrow
    simp only [Tilemap.modifyTile, List.length_modify] at hy
    simp only [Tilemap.modifyTile, List.getElem_modify]
    split
    · rw [List.length_modify, h.width _ (List.getElem_mem hy)]
    · exact h.width _ (List.getElem_mem hy)

/-! ## The values -/

/-- Every tile has a value of one digit. -/
def OneDigit (m : Tilemap) : Prop := ∀ row ∈ m.tiles, ∀ tile ∈ row, IsDigit tile.value

theorem isDigit_zero : IsDigit 0 := by decide

theorem OneDigit.tile (h : m.OneDigit) (y x : ℕ) : IsDigit (m.tile y x).value := by
  rw [Tilemap.tile]
  rcases lt_or_ge y m.tiles.length with hy | hy
  · rw [List.getD_eq_getElem _ _ hy]
    rcases lt_or_ge x m.tiles[y].length with hx | hx
    · rw [List.getD_eq_getElem _ _ hx]
      exact h _ (List.getElem_mem hy) _ (List.getElem_mem hx)
    · rw [List.getD_eq_default _ _ hx]
      exact isDigit_zero
  · rw [List.getD_eq_default _ _ hy]
    exact isDigit_zero

theorem oneDigit_of_rows {f : ℕ → ℕ → Tile} (hf : ∀ y x, IsDigit (f y x).value)
    (h : m.tiles = rows m.mapSize f) : m.OneDigit := by
  intro row hrow tile htile
  rw [h] at hrow
  obtain ⟨y, -, rfl⟩ := List.mem_map.1 hrow
  obtain ⟨x, -, rfl⟩ := List.mem_map.1 htile
  exact hf y x

theorem OneDigit.modifyTile (h : m.OneDigit) (hf : ∀ t, IsDigit t.value → IsDigit (f t).value) :
    (m.modifyTile pos f).OneDigit := by
  intro row hrow tile htile
  obtain ⟨y, hy, rfl⟩ := List.getElem_of_mem hrow
  simp only [Tilemap.modifyTile, List.length_modify] at hy
  simp only [Tilemap.modifyTile, List.getElem_modify] at htile
  split at htile
  · obtain ⟨x, hx, rfl⟩ := List.getElem_of_mem htile
    rw [List.length_modify] at hx
    rw [List.getElem_modify]
    split
    · exact hf _ (h _ (List.getElem_mem hy) _ (List.getElem_mem hx))
    · exact h _ (List.getElem_mem hy) _ (List.getElem_mem hx)
  · exact h _ (List.getElem_mem hy) _ htile

theorem isDigit_loadTile {size : Vec2Int} {l : List Char} (y x : ℕ) :
    IsDigit (loadTile size (digitValues l) y x).value := by
  simp only [loadTile]
  split
  · rename_i hlt
    rw [List.getD_eq_getElem _ _ hlt]
    exact isDigit_of_mem_digitValues (List.getElem_mem hlt)
  · exact isDigit_zero

/-! ## Loading -/

theorem loadFile_eq_some {text : List Char} (h : m.loadFile (some text) = some m') :
    m'.Shaped ∧ m'.OneDigit := by
  obtain ⟨m₁, hsize, rfl⟩ := Option.map_eq_some_iff.1 h
  obtain ⟨⟨hx, hy⟩, rfl⟩ := setMapSize_eq_some hsize
  exact ⟨shaped_of_rows hx hy rfl, oneDigit_of_rows isDigit_loadTile rfl⟩

/-- A tile is loaded from the digits of the two layers. -/
theorem loadTile_of_layers {size : Vec2Int} {value : ℕ → ℕ → Int32} {flag : ℕ → ℕ → Int32} {y x : ℕ}
    (hy : y < size.y.toInt.toNat) (hx : x < size.x.toInt.toNat) :
    loadTile size
      (((List.range size.y.toInt.toNat).flatMap fun y => (List.range size.x.toInt.toNat).map (value y))
        ++ (List.range size.y.toInt.toNat).flatMap fun y => (List.range size.x.toInt.toNat).map (flag y))
      y x = ⟨value y x, flag y x ≠ 0⟩ := by
  set height := size.y.toInt.toNat with hheight
  set width := size.x.toInt.toNat with hwidth
  set values := (List.range height).flatMap fun y => (List.range width).map (value y)
  set flags := (List.range height).flatMap fun y => (List.range width).map (flag y)
  have hvalue : values[y * width + x]? = some (value y x) := getElem?_rows value hy hx
  have hflag : flags[y * width + x]? = some (flag y x) := getElem?_rows flag hy hx
  have hlen : values.length = width * height := by
    rw [Nat.mul_comm]
    exact TextStream.length_rows height width value
  obtain ⟨hlt, hvalue⟩ := List.getElem?_eq_some_iff.1 hvalue
  obtain ⟨hlt', hflag⟩ := List.getElem?_eq_some_iff.1 hflag
  have hindex : (values ++ flags).getD (y * width + x) 0 = value y x := by
    rw [List.getD_append _ _ _ _ hlt, List.getD_eq_getElem _ _ hlt, hvalue]
  have hwalkable : (values ++ flags).getD (width * height + (y * width + x)) 0 = flag y x := by
    rw [← hlen, List.getD_append_right _ _ _ _ (Nat.le_add_right _ _), Nat.add_sub_cancel_left,
      List.getD_eq_getElem _ _ hlt', hflag]
  simp only [loadTile, ← hheight, ← hwidth, hindex, hwalkable, List.length_append]
  rw [if_pos (by omega), if_pos (by omega)]

/-- **What is loaded from a size and two layers of digits**, whatever the map was before. -/
theorem loadFile_of_layers (m : Tilemap) {size : Vec2Int} (hx : 0 ≤ size.x.toInt)
    (hy : 0 ≤ size.y.toInt) {value flag : ℕ → ℕ → Int32} (hvalue : ∀ y x, IsDigit (value y x))
    (hflag : ∀ y x, IsDigit (flag y x)) :
    m.loadFile (some (putInt size.x ++ '\n' :: (putInt size.y ++ '\n' ::
      (layer size.y.toInt.toNat size.x.toInt.toNat value ++ '\n' ::
        layer size.y.toInt.toNat size.x.toInt.toNat flag)))) =
      some { m with mapSize := size, tiles := rows size fun y x => ⟨value y x, flag y x ≠ 0⟩ } := by
  have hbreak : ∀ l : List Char, ∀ c ∈ ('\n' :: l).head?, c.isDigit = false := by
    intro l c hc
    obtain rfl := Option.some.inj hc
    decide
  have hspaces : ∀ c ∈ ['\n'], isSpace c = true := by
    intro c hc
    rw [List.mem_singleton.1 hc]
    rfl
  have hnone : ∀ c ∈ ([] : List Char), isSpace c = true := fun c hc => absurd hc List.not_mem_nil
  have hfirst := fun rest => getInt_putInt size.x m.mapSize.x hnone (hbreak rest)
  have hsecond := fun rest => getInt_putInt size.y m.mapSize.y hspaces (hbreak rest)
  simp only [List.nil_append, List.singleton_append] at hfirst hsecond
  have hline : ∀ l, digitValues ('\n' :: l) = digitValues l := fun l => rfl
  simp only [loadFile, hfirst, hsecond, InStream.getAll, Bool.false_eq_true, if_false, hline,
    digitValues_append, digitValues_layer fun y _ x _ => hvalue y x,
    digitValues_layer fun y _ x _ => hflag y x, setMapSize_of_nonneg m hx hy, Option.map_some]
  congr 2
  refine List.map_congr_left fun y hy => List.map_congr_left fun x hx => ?_
  exact loadTile_of_layers (List.mem_range.1 hy) (List.mem_range.1 hx)

end Zelda.Server.Tilemap
