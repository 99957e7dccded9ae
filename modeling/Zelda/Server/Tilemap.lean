import Zelda.Server.Vec2Int

/-!
# The tilemap
-/

namespace Zelda.Server

/-- `struct Tile` -/
structure Tile where
  value : Int32 := 0
  walkable : Bool := true
  deriving DecidableEq, Repr

/-- `class Tilemap`: the size and the rows of tiles. -/
structure Tilemap where
  mapSize : Vec2Int := ⟨0, 0⟩
  tiles : List (List Tile) := []
  deriving DecidableEq, Repr

namespace Tilemap

/-- `Tilemap::GetTileAt`; `none` is the null pointer. -/
def getTileAt (m : Tilemap) (pos : Vec2Int) : Option Tile :=
  if pos.x < 0 ∨ m.mapSize.x ≤ pos.x ∨ pos.y < 0 ∨ m.mapSize.y ≤ pos.y then
    none
  else do
    let row ← m.tiles[pos.y.toInt.toNat]?
    row[pos.x.toInt.toNat]?

/-- The cell is inside the map. -/
def Inside (m : Tilemap) (pos : Vec2Int) : Prop :=
  0 ≤ pos.x ∧ pos.x < m.mapSize.x ∧ 0 ≤ pos.y ∧ pos.y < m.mapSize.y

/-- The cell is inside the map and its tile can be walked on. -/
def Walkable (m : Tilemap) (pos : Vec2Int) : Prop :=
  ∃ tile, m.getTileAt pos = some tile ∧ tile.walkable = true

instance (m : Tilemap) : DecidablePred m.Walkable := fun pos =>
  decidable_of_iff ((m.getTileAt pos).any (·.walkable) = true) (Option.any_eq_true _ _)

theorem Walkable.inside {m : Tilemap} {pos : Vec2Int} (h : m.Walkable pos) : m.Inside pos := by
  obtain ⟨tile, ht, -⟩ := h
  unfold getTileAt at ht
  split at ht
  · cases ht
  · rename_i hin
    simp only [not_or, Int32.not_lt, Int32.not_le] at hin
    exact ⟨hin.1, hin.2.1, hin.2.2.1, hin.2.2.2⟩

end Tilemap

end Zelda.Server
