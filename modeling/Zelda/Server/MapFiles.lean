import Zelda.Server.TilemapFile

/-!
# Map files of any content

`LoadFile` reads the two numbers at the head of the file into the size of the map and hands them to
`SetMapSize` as they are. It has a default for every digit that is missing, but a negative size is
asked for as a length and throws, and so does a map that there is no memory for.

`handled_iff`: these are the only files that are not handled. Whether a size is negative is read off
the text (`InStream.readsNegative`), and whether the vectors of a size can be allocated is a
parameter, `room`.
-/

namespace Zelda.Server.Tilemap

open TextStream

variable {room : Vec2Int → Bool} {m m' : Tilemap} {text : List Char} {file : Option (List Char)}
  {pos : Vec2Int}

/-- The stream behind the first number. -/
def afterWidth (m : Tilemap) (text : List Char) : InStream :=
  (InStream.getInt ⟨text, false⟩ m.mapSize.x).2

/-- The size that `ifs >> _mapSize.x >> _mapSize.y` leaves. -/
def header (m : Tilemap) (text : List Char) : Vec2Int :=
  ⟨(InStream.getInt ⟨text, false⟩ m.mapSize.x).1, ((m.afterWidth text).getInt m.mapSize.y).1⟩

/-- `Tilemap::LoadFile`, where the vectors of a map can be allocated if there is `room` for its size;
`none` if it throws. -/
def loadFileIn (room : Vec2Int → Bool) (m : Tilemap) (file : Option (List Char)) : Option Tilemap :=
  match file with
  | none => some m
  | some text => if room (m.header text) then m.loadFile (some text) else none

/-- The file is loaded, and there is a tile for every cell of the map. -/
def Handled (room : Vec2Int → Bool) (m : Tilemap) (file : Option (List Char)) : Prop :=
  ∃ m', m.loadFileIn room file = some m' ∧ m'.Shaped ∧
    ∀ pos, m'.Inside pos → ∃ tile, m'.getTileAt pos = some tile

/-- Without a file the map has to be in order already. Otherwise neither number at the head of the
file is negative, nor the size it had where there is no number, and there is room for the map. -/
def Loadable (room : Vec2Int → Bool) (m : Tilemap) : Option (List Char) → Prop
  | none => m.Shaped
  | some text => InStream.readsNegative ⟨text, false⟩ m.mapSize.x = false ∧
      (m.afterWidth text).readsNegative m.mapSize.y = false ∧ room (m.header text) = true

/-- Every cell inside a map of the right shape has its tile. -/
theorem Shaped.getTileAt (h : m.Shaped) (hpos : m.Inside pos) :
    ∃ tile, m.getTileAt pos = some tile := by
  obtain ⟨hx₀, hx, hy₀, hy⟩ := hpos
  have hout : ¬ (pos.x < 0 ∨ m.mapSize.x ≤ pos.x ∨ pos.y < 0 ∨ m.mapSize.y ≤ pos.y) := by
    simp only [not_or, Int32.not_lt, Int32.not_le]
    exact ⟨hx₀, hx, hy₀, hy⟩
  rw [Int32.le_iff_toInt_le, Int32.toInt_zero] at hx₀ hy₀
  rw [Int32.lt_iff_toInt_lt] at hx hy
  have hrow : pos.y.toInt.toNat < m.tiles.length := by
    rw [h.height]
    omega
  have htile : pos.x.toInt.toNat < (m.tiles[pos.y.toInt.toNat]).length := by
    rw [h.width _ (List.getElem_mem hrow)]
    omega
  refine ⟨m.tiles[pos.y.toInt.toNat][pos.x.toInt.toNat], ?_⟩
  rw [Tilemap.getTileAt, if_neg hout, List.getElem?_eq_getElem hrow]
  exact List.getElem?_eq_getElem htile

theorem loadFile_eq (m : Tilemap) (text : List Char) : m.loadFile (some text) =
    (m.setMapSize (m.header text)).map fun m' => { m' with
      tiles := rows m'.mapSize (loadTile m'.mapSize
        (digitValues ((m.afterWidth text).getInt m.mapSize.y).2.getAll)) } := rfl

/-- A file is loaded exactly if neither size is negative. -/
theorem loadFile_isSome_iff : (m.loadFile (some text)).isSome = true ↔
    0 ≤ (m.header text).x.toInt ∧ 0 ≤ (m.header text).y.toInt := by
  rw [loadFile_eq, Option.isSome_map]
  constructor
  · intro h
    obtain ⟨m', hm'⟩ := Option.isSome_iff_exists.1 h
    exact (setMapSize_eq_some hm').1
  · rintro ⟨hx, hy⟩
    rw [setMapSize_of_nonneg m hx hy]
    rfl

theorem loadable_some_iff : Loadable room m (some text) ↔
    (m.loadFile (some text)).isSome = true ∧ room (m.header text) = true := by
  rw [loadFile_isSome_iff, Loadable, ← Bool.not_eq_true, ← Bool.not_eq_true, ← getInt_lt_zero_iff,
    ← getInt_lt_zero_iff, not_lt, not_lt, and_assoc]
  rfl

/-- **A map file is handled** exactly if no size at its head is negative and there is memory for the
map. -/
theorem handled_iff (room : Vec2Int → Bool) (m : Tilemap) (file : Option (List Char)) :
    Handled room m file ↔ Loadable room m file := by
  cases file with
  | none =>
    constructor
    · rintro ⟨m', h, hshaped, -⟩
      obtain rfl := Option.some.inj h
      exact hshaped
    · exact fun h => ⟨m, rfl, h, fun _ => h.getTileAt⟩
  | some text =>
    rw [loadable_some_iff]
    constructor
    · rintro ⟨m', h, -⟩
      rw [loadFileIn] at h
      split_ifs at h with hroom
      exact ⟨Option.isSome_of_eq_some h, hroom⟩
    · rintro ⟨hsome, hroom⟩
      obtain ⟨m', hm'⟩ := Option.isSome_iff_exists.1 hsome
      obtain ⟨hshaped, -⟩ := loadFile_eq_some hm'
      refine ⟨m', ?_, hshaped, fun _ => hshaped.getTileAt⟩
      rw [loadFileIn, if_pos hroom, hm']

/-- A map of minus one column. -/
theorem not_handled_negative_width :
    ¬ Handled (fun _ => true) {} (some ['-', '1', ' ', '5']) := by
  rintro ⟨m', h, -⟩
  have hthrows : loadFileIn (fun _ => true) {} (some ['-', '1', ' ', '5']) = none := by decide
  rw [hthrows] at h
  cases h

end Zelda.Server.Tilemap
