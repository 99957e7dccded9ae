import Zelda.Server.TilemapFile

/-!
# Saving a tilemap

`Tilemap::SaveFile` of the client, which writes two layers of digits, and what builds the maps it
saves: `SetMapSize`, `LoadFile` and `TilemapActor::TickPicking`. A map that was saved is loaded as
it was, by the client and by the server (`loadFile_saveFile`): all its values have one digit.
-/

namespace Zelda.Client

open Server (Vec2Int Tile)
open TextStream

/-- `class Tilemap`, the same as the server's. -/
abbrev Tilemap := Server.Tilemap

namespace Tilemap

/-- `Tilemap::LoadFile` -/
def loadFile (m : Tilemap) (file : Option (List Char)) : Option Tilemap :=
  Server.Tilemap.loadFile m file

/-- `Tilemap::SaveFile`: the text that is written. -/
def saveFile (m : Tilemap) : List Char :=
  putInt m.mapSize.x ++ '\n' :: (putInt m.mapSize.y ++ '\n' ::
    (layer m.mapSize.y.toInt.toNat m.mapSize.x.toInt.toNat (fun y x => (m.tile y x).value) ++ '\n' ::
      layer m.mapSize.y.toInt.toNat m.mapSize.x.toInt.toNat
        (fun y x => if (m.tile y x).walkable then 1 else 0)))

end Tilemap

/-- `TILE_SIZEX` and `TILE_SIZEY` -/
def tileSize : Int32 := 48

/-- `TilemapActor::TickPicking`, with the position of the mouse in the world. -/
def tickPicking (m : Tilemap) (leftMouse : Bool) (posX posY : Int32) : Tilemap :=
  if leftMouse then
    let pos : Vec2Int := ⟨posX / tileSize, posY / tileSize⟩
    match m.getTileAt pos with
    | none => m
    | some _ => m.modifyTile pos fun _ => ⟨1, false⟩
  else m

/-- The maps that the program can build. The walkable flags may be set to anything. -/
inductive Built : Tilemap → Prop
  | new : Built {}
  | setMapSize {m m' : Tilemap} {size : Vec2Int} (hm : Built m) (h : m.setMapSize size = some m') :
      Built m'
  | loadFile {m m' : Tilemap} {file : Option (List Char)} (hm : Built m)
      (h : Tilemap.loadFile m file = some m') : Built m'
  | tickPicking {m : Tilemap} (hm : Built m) (leftMouse : Bool) (posX posY : Int32) :
      Built (tickPicking m leftMouse posX posY)
  | setWalkable {m : Tilemap} (hm : Built m) (pos : Vec2Int) (walkable : Bool) :
      Built (m.modifyTile pos fun tile => { tile with walkable := walkable })

/-- Such a map has a tile for every cell, each with a value of one digit. -/
theorem Built.shaped_oneDigit {m : Tilemap} (h : Built m) : m.Shaped ∧ m.OneDigit := by
  induction h with
  | new =>
    refine ⟨⟨le_rfl, le_rfl, rfl, fun row hrow => ?_⟩, fun row hrow => ?_⟩ <;>
    exact absurd hrow List.not_mem_nil
  | setMapSize _ h _ =>
    obtain ⟨⟨hx, hy⟩, rfl⟩ := Server.Tilemap.setMapSize_eq_some h
    exact ⟨Server.Tilemap.shaped_of_rows hx hy rfl,
      Server.Tilemap.oneDigit_of_rows (fun _ _ => Server.Tilemap.isDigit_zero) rfl⟩
  | @loadFile m _ file _ h ih =>
    cases file with
    | none =>
      obtain rfl := Option.some.inj h
      exact ih
    | some text => exact Server.Tilemap.loadFile_eq_some h
  | tickPicking _ leftMouse posX posY ih =>
    unfold Client.tickPicking
    split
    · simp only
      split
      · exact ih
      · exact ⟨ih.1.modifyTile, ih.2.modifyTile fun _ _ => by decide⟩
    · exact ih
  | setWalkable _ _ _ ih => exact ⟨ih.1.modifyTile, ih.2.modifyTile fun _ h => h⟩

/-- **A map that was saved is loaded as it was**, by the client and by the server, into whatever map
there was before. -/
theorem loadFile_saveFile (m : Tilemap) (h : Built m) (m₀ : Tilemap) :
    Tilemap.loadFile m₀ (some (Tilemap.saveFile m)) = some m ∧
      Server.Tilemap.loadFile m₀ (some (Tilemap.saveFile m)) = some m := by
  obtain ⟨hshape, hdigit⟩ := h.shaped_oneDigit
  have hflag : ∀ y x, IsDigit (if (m.tile y x).walkable then 1 else 0) := by
    intro y x
    split <;> decide
  have hload := Server.Tilemap.loadFile_of_layers m₀ hshape.nonneg_x hshape.nonneg_y
    (fun y x => hdigit.tile y x) hflag
  have htile : (fun y x => (⟨(m.tile y x).value, (if (m.tile y x).walkable then (1 : Int32) else 0) ≠ 0⟩ :
      Tile)) = m.tile := by
    funext y x
    cases htile : m.tile y x with
    | mk value walkable => cases walkable <;> rfl
  rw [htile, hshape.rows_tile] at hload
  exact ⟨hload, hload⟩

/-- Two tiles, the second of them picked and the first made impassable. -/
def pickedMap : Tilemap := ⟨⟨2, 1⟩, [[⟨0, false⟩, ⟨1, false⟩]]⟩

theorem built_pickedMap : Built pickedMap := by
  have hsize : Server.Tilemap.setMapSize {} ⟨2, 1⟩ = some ⟨⟨2, 1⟩, [[{}, {}]]⟩ := rfl
  exact ((Built.new.setMapSize hsize).tickPicking true 50 10).setWalkable ⟨0, 0⟩ false

theorem loadFile_saveFile_pickedMap :
    Tilemap.loadFile {} (some (Tilemap.saveFile pickedMap)) = some pickedMap ∧
      Server.Tilemap.loadFile {} (some (Tilemap.saveFile pickedMap)) = some pickedMap :=
  loadFile_saveFile pickedMap built_pickedMap {}

example : Tilemap.saveFile pickedMap = "2\n1\n01\n\n00\n".toList := by decide

end Zelda.Client
