import Mathlib.Data.Int.Range
import Zelda.Client.Tilemap

/-!
# Drawing the tilemap

`TilemapActor::Render` draws the tiles in the columns and rows that it computes from the edges of
the window, in place of all the tiles (`renderFull`, the loop that is left there as a comment).
Positions are exact rationals, and a conversion to an `int32` drops the fraction (`truncate`).

Main result: `render_agrees`, about what `mem_renderFull_iff` says is drawn.
-/

namespace Zelda.Client

/-- `Vec2` -/
@[ext] structure Vec2 where
  x : ℚ
  y : ℚ
  deriving DecidableEq

/-- The conversion of a `float` to an integer. -/
def truncate (a : ℚ) : ℤ := if 0 ≤ a then ⌊a⌋ else ⌈a⌉

/-- `GWinSizeX` -/
def gWinSizeX : ℤ := 800

/-- `GWinSizeY` -/
def gWinSizeY : ℤ := 600

/-- What `TransparentBlt` is called with: the cell, where it is drawn and the sprite. -/
structure Blit where
  x : ℤ
  y : ℤ
  left : ℤ
  top : ℤ
  sprite : String
  deriving DecidableEq, Repr

/-- Some of the tile is inside the window. -/
def Blit.Visible (b : Blit) : Prop :=
  -tileSize.toInt < b.left ∧ b.left < gWinSizeX ∧ -tileSize.toInt < b.top ∧ b.top < gWinSizeY

/-- `class TilemapActor` -/
structure TilemapActor where
  pos : Vec2
  tilemap : Option Tilemap := none
  showDebug : Bool := false

namespace TilemapActor

/-- The edge of the window on the left or above it. -/
def lowEdge (cameraPos : ℚ) (winSize : ℤ) : ℤ := truncate cameraPos - winSize / 2

/-- The edge of the window on the right or below it. -/
def highEdge (cameraPos : ℚ) (winSize : ℤ) : ℤ := truncate cameraPos + winSize / 2

/-- The column or row of an edge. -/
def column (edge : ℤ) (pos : ℚ) : ℤ := truncate ((edge - pos) / tileSize.toInt)

/-- Where a column or row is drawn. -/
def place (edge : ℤ) (pos : ℚ) (x : ℤ) : ℤ := truncate (pos + x * tileSize.toInt - edge)

/-- The body of the loops. -/
def drawTile (pos cameraPos : Vec2) (m : Tilemap) (y x : ℤ) : Option Blit :=
  let left := place (lowEdge cameraPos.x gWinSizeX) pos.x x
  let top := place (lowEdge cameraPos.y gWinSizeY) pos.y y
  let value := (m.tile y.toNat x.toNat).value
  if value = 0 then some ⟨x, y, left, top, "TileO"⟩
  else if value = 1 then some ⟨x, y, left, top, "TileX"⟩
  else none

/-- The loop over the tiles near the window. -/
def culledLoop (pos cameraPos : Vec2) (m : Tilemap) : List Blit :=
  let startX := column (lowEdge cameraPos.x gWinSizeX) pos.x
  let startY := column (lowEdge cameraPos.y gWinSizeY) pos.y
  let endX := column (highEdge cameraPos.x gWinSizeX) pos.x
  let endY := column (highEdge cameraPos.y gWinSizeY) pos.y
  (Int.range startY (endY + 1)).flatMap fun y =>
    (Int.range startX (endX + 1)).filterMap fun x =>
      if x < 0 ∨ m.mapSize.x.toInt ≤ x then none
      else if y < 0 ∨ m.mapSize.y.toInt ≤ y then none
      else drawTile pos cameraPos m y x

/-- The loop over all the tiles. -/
def fullLoop (pos cameraPos : Vec2) (m : Tilemap) : List Blit :=
  (Int.range 0 m.mapSize.y.toInt).flatMap fun y =>
    (Int.range 0 m.mapSize.x.toInt).filterMap fun x => drawTile pos cameraPos m y x

/-- `TilemapActor::Render`, with the loop that it runs. -/
def renderWith (loop : Vec2 → Vec2 → Tilemap → List Blit) (a : TilemapActor) (cameraPos : Vec2) :
    List Blit :=
  match a.tilemap with
  | none => []
  | some m => if a.showDebug = false then [] else loop a.pos cameraPos m

/-- `TilemapActor::Render` -/
def render : TilemapActor → Vec2 → List Blit := renderWith culledLoop

/-- `TilemapActor::Render` with the loop of the comment. -/
def renderFull : TilemapActor → Vec2 → List Blit := renderWith fullLoop

end TilemapActor

/-! ## Truncation -/

theorem lt_of_lt_truncate {a : ℚ} {n : ℤ} (hn : n < 0) (h : n < truncate a) : (n : ℚ) < a := by
  unfold truncate at h
  split_ifs at h with ha
  · exact lt_of_lt_of_le (by exact_mod_cast hn) ha
  · exact Int.lt_ceil.1 h

theorem lt_of_truncate_lt {a : ℚ} {n : ℤ} (hn : 0 < n) (h : truncate a < n) : a < n := by
  unfold truncate at h
  split_ifs at h with ha
  · exact Int.floor_lt.1 h
  · exact (not_le.1 ha).trans (by exact_mod_cast hn)

theorem truncate_le {a : ℚ} {n : ℤ} (hn : 0 ≤ n) (h : a < n + 1) : truncate a ≤ n := by
  unfold truncate
  split_ifs with ha
  · exact Int.lt_add_one_iff.1 (Int.floor_lt.2 (by exact_mod_cast h))
  · exact (Int.ceil_le.2 (by exact_mod_cast (not_le.1 ha).le)).trans hn

theorem le_truncate {a : ℚ} {n : ℤ} (hn : 0 ≤ n) (h : (n : ℚ) ≤ a) : n ≤ truncate a := by
  have ha : 0 ≤ a := le_trans (by exact_mod_cast hn) h
  rw [truncate, if_pos ha]
  exact Int.le_floor.2 h

namespace TilemapActor

variable {pos cameraPos : Vec2} {m : Tilemap} {b : Blit}

/-! ## One axis -/

theorem toInt_tileSize : tileSize.toInt = 48 := rfl

/-- A tile of the map that is drawn to the right of the left edge is at or after the first column. -/
theorem column_le {edge : ℤ} {pos : ℚ} {x : ℤ} (hx : 0 ≤ x)
    (h : -tileSize.toInt < place edge pos x) : column edge pos ≤ x := by
  have hplace := lt_of_lt_truncate (by decide) h
  rw [toInt_tileSize] at hplace
  refine truncate_le hx ?_
  rw [toInt_tileSize]
  push_cast at hplace ⊢
  rw [div_lt_iff₀ (by norm_num)]
  linarith

/-- A tile of the map that is drawn to the left of the right edge is at or before the last column. -/
theorem le_column {cameraPos pos : ℚ} {winSize x : ℤ} (hwin : 0 < winSize) (heven : Even winSize)
    (hx : 0 ≤ x) (h : place (lowEdge cameraPos winSize) pos x < winSize) :
    x ≤ column (highEdge cameraPos winSize) pos := by
  have hplace := lt_of_truncate_lt hwin h
  have hedges : ((highEdge cameraPos winSize : ℤ) : ℚ) = lowEdge cameraPos winSize + winSize := by
    rw [highEdge, lowEdge]
    obtain ⟨half, rfl⟩ := heven
    rw [show (half + half) / 2 = half by omega]
    push_cast
    ring
  refine le_truncate hx ?_
  rw [toInt_tileSize] at hplace ⊢
  rw [hedges]
  push_cast at hplace ⊢
  rw [le_div_iff₀ (by norm_num)]
  linarith

/-! ## The loops -/

/-- The sprite of a tile with the given value. -/
def IsSprite (value : Int32) (sprite : String) : Prop :=
  value = 0 ∧ sprite = "TileO" ∨ value = 1 ∧ sprite = "TileX"

theorem drawTile_eq_some_iff {y x : ℤ} : drawTile pos cameraPos m y x = some b ↔
    b.x = x ∧ b.y = y ∧ b.left = place (lowEdge cameraPos.x gWinSizeX) pos.x x ∧
      b.top = place (lowEdge cameraPos.y gWinSizeY) pos.y y ∧
      IsSprite (m.tile y.toNat x.toNat).value b.sprite := by
  obtain ⟨bx, bY, left, top, sprite⟩ := b
  unfold drawTile IsSprite
  dsimp only
  split_ifs with hzero hone
  · rw [hzero]
    simp [eq_comm]
  · rw [hone]
    simp [eq_comm]
  · simp [hzero, hone]

/-- The cell is one of the map. -/
def InMap (m : Tilemap) (x y : ℤ) : Prop :=
  0 ≤ x ∧ x < m.mapSize.x.toInt ∧ 0 ≤ y ∧ y < m.mapSize.y.toInt

theorem mem_fullLoop : b ∈ fullLoop pos cameraPos m ↔
    InMap m b.x b.y ∧ drawTile pos cameraPos m b.y b.x = some b := by
  simp only [fullLoop, List.mem_flatMap, List.mem_filterMap, Int.mem_range_iff]
  constructor
  · rintro ⟨y, ⟨hy, hy'⟩, x, ⟨hx, hx'⟩, h⟩
    obtain ⟨rfl, rfl, -⟩ := drawTile_eq_some_iff.1 h
    exact ⟨⟨hx, hx', hy, hy'⟩, h⟩
  · rintro ⟨⟨hx, hx', hy, hy'⟩, h⟩
    exact ⟨_, ⟨hy, hy'⟩, _, ⟨hx, hx'⟩, h⟩

theorem mem_culledLoop : b ∈ culledLoop pos cameraPos m ↔
    b ∈ fullLoop pos cameraPos m ∧
      (column (lowEdge cameraPos.x gWinSizeX) pos.x ≤ b.x ∧
        b.x ≤ column (highEdge cameraPos.x gWinSizeX) pos.x) ∧
      column (lowEdge cameraPos.y gWinSizeY) pos.y ≤ b.y ∧
        b.y ≤ column (highEdge cameraPos.y gWinSizeY) pos.y := by
  simp only [mem_fullLoop, culledLoop, List.mem_flatMap, List.mem_filterMap, Int.mem_range_iff,
    Int.lt_add_one_iff]
  constructor
  · rintro ⟨y, hy, x, hx, h⟩
    split_ifs at h with hoffx hoffy
    obtain ⟨rfl, rfl, -⟩ := drawTile_eq_some_iff.1 h
    exact ⟨⟨by unfold InMap; omega, h⟩, hx, hy⟩
  · rintro ⟨⟨⟨hx, hx', hy, hy'⟩, h⟩, hcolumn, hrow⟩
    refine ⟨b.y, hrow, b.x, hcolumn, ?_⟩
    rw [if_neg (by omega), if_neg (by omega), h]

/-- What can be seen is in the columns and rows of the window. -/
theorem mem_culledLoop_of_visible (h : b ∈ fullLoop pos cameraPos m) (hvisible : b.Visible) :
    b ∈ culledLoop pos cameraPos m := by
  obtain ⟨⟨hx, -, hy, -⟩, hdraw⟩ := mem_fullLoop.1 h
  obtain ⟨-, -, hleft, htop, -⟩ := drawTile_eq_some_iff.1 hdraw
  obtain ⟨hl, hr, ht, hb⟩ := hvisible
  rw [hleft] at hl hr
  rw [htop] at ht hb
  exact mem_culledLoop.2 ⟨h, ⟨column_le hx hl, le_column (by decide) (by decide) hx hr⟩,
    column_le hy ht, le_column (by decide) (by decide) hy hb⟩

/-! ## The actor -/

theorem mem_renderWith {loop : Vec2 → Vec2 → Tilemap → List Blit} {a : TilemapActor} :
    b ∈ a.renderWith loop cameraPos ↔
      ∃ m, a.tilemap = some m ∧ a.showDebug = true ∧ b ∈ loop a.pos cameraPos m := by
  unfold renderWith
  cases a.tilemap with
  | none => simp
  | some m => cases a.showDebug <;> simp

/-- **The full loop draws the tiles with the values 0 and 1**, each where it is in the world less the
edge of the window on that axis. -/
theorem mem_renderFull_iff {a : TilemapActor} : b ∈ a.renderFull cameraPos ↔
    ∃ m, a.tilemap = some m ∧ a.showDebug = true ∧ InMap m b.x b.y ∧
      b.left = truncate (a.pos.x + b.x * 48 - (truncate cameraPos.x - 400)) ∧
      b.top = truncate (a.pos.y + b.y * 48 - (truncate cameraPos.y - 300)) ∧
      IsSprite (m.tile b.y.toNat b.x.toNat).value b.sprite := by
  have hleft : place (lowEdge cameraPos.x gWinSizeX) a.pos.x b.x =
      truncate (a.pos.x + b.x * 48 - (truncate cameraPos.x - 400)) := by
    simp [place, lowEdge, gWinSizeX, toInt_tileSize]
  have htop : place (lowEdge cameraPos.y gWinSizeY) a.pos.y b.y =
      truncate (a.pos.y + b.y * 48 - (truncate cameraPos.y - 300)) := by
    simp [place, lowEdge, gWinSizeY, toInt_tileSize]
  rw [renderFull, mem_renderWith, ← hleft, ← htop]
  simp only [mem_fullLoop, drawTile_eq_some_iff, true_and]

/-- **Culling agrees with drawing everything**: every tile of the full loop that can be seen is drawn,
and every tile that is drawn is a cell of the map, drawn as in the full loop. -/
theorem render_agrees (a : TilemapActor) (cameraPos : Vec2) :
    (∀ b ∈ a.renderFull cameraPos, b.Visible → b ∈ a.render cameraPos) ∧
      ∀ b ∈ a.render cameraPos, b ∈ a.renderFull cameraPos ∧
        ∃ m, a.tilemap = some m ∧ InMap m b.x b.y := by
  constructor
  · intro b hb hvisible
    obtain ⟨m, htilemap, hdebug, hmem⟩ := mem_renderWith.1 hb
    exact mem_renderWith.2 ⟨m, htilemap, hdebug, mem_culledLoop_of_visible hmem hvisible⟩
  · intro b hb
    obtain ⟨m, htilemap, hdebug, hmem⟩ := mem_renderWith.1 hb
    obtain ⟨hfull, -⟩ := mem_culledLoop.1 hmem
    exact ⟨mem_renderWith.2 ⟨m, htilemap, hdebug, hfull⟩, m, htilemap, (mem_fullLoop.1 hfull).1⟩

/-- A tile of each value, with the left edge of the window at the first. -/
def meadow : TilemapActor where
  pos := ⟨0, 0⟩
  tilemap := some ⟨⟨3, 1⟩, [[{}, { value := 1 }, { value := 2 }]]⟩
  showDebug := true

/-- The second tile is drawn and the third is not. -/
theorem render_agrees_meadow :
    (⟨1, 0, 48, 0, "TileX"⟩ : Blit) ∈ meadow.render ⟨400, 300⟩ ∧
      ∀ b ∈ meadow.render ⟨400, 300⟩, b.x ≠ 2 := by
  obtain ⟨hvisible, hfull⟩ := render_agrees meadow ⟨400, 300⟩
  refine ⟨hvisible _ (mem_renderFull_iff.2 ⟨_, rfl, rfl, ?_, ?_, ?_, ?_⟩) ?_, fun b hb hx => ?_⟩
  · unfold InMap
    decide
  · norm_num [meadow, truncate]
  · norm_num [meadow, truncate]
  · exact .inr ⟨rfl, rfl⟩
  · unfold Blit.Visible
    decide
  · obtain ⟨m, htilemap, -, ⟨-, -, hy, hy'⟩, -, -, hsprite⟩ := mem_renderFull_iff.1 (hfull b hb).1
    cases htilemap
    have hrow : b.y = 0 := le_antisymm (Int.lt_add_one_iff.1 hy') hy
    rw [hx, hrow] at hsprite
    rcases hsprite with ⟨hvalue, -⟩ | ⟨hvalue, -⟩ <;> exact absurd hvalue (by decide)

end TilemapActor

end Zelda.Client
