import Zelda.Foundations.BestFirst
import Zelda.Foundations.Binary32
import Zelda.Server.Tilemap

/-!
# `FindPath` in exact arithmetic

`GameRoom::FindPath` and `DevScene::FindPath` have the same text. Here they are the search of
`BestFirst` on cells whose coordinates are exact integers; `CanGo` is all in which the two differ.

Main result: `GameRoom.findPath_spec`. Unless `dest` is too far, the path leads from `src` to
`dest`, or where that cannot be reached to the cell nearest to it.
-/

namespace Zelda.Exact

open Std (ExtTreeMap)

/-- `struct VectorInt` -/
@[ext] structure Cell where
  x : ℤ
  y : ℤ
  deriving DecidableEq, Repr

namespace Cell

instance : Inhabited Cell := ⟨0, 0⟩

/-- `VectorInt::operator+` -/
instance : Add Cell := ⟨fun a b => ⟨a.x + b.x, a.y + b.y⟩⟩

/-- `VectorInt::operator<` -/
instance : Ord Cell := ⟨compareLex (compareOn x) (compareOn y)⟩

instance : Std.TransOrd Cell :=
  inferInstanceAs (Std.TransCmp (compareLex (compareOn Cell.x) (compareOn Cell.y)))

instance : Std.LawfulEqOrd Cell where
  eq_of_compare {a b} h := by
    have h : compareLex (compareOn Cell.x) (compareOn Cell.y) a b = .eq := h
    rw [compareLex_eq_eq] at h
    obtain ⟨hx, hy⟩ := h
    exact Cell.ext (Std.LawfulEqCmp.eq_of_compare hx) (Std.LawfulEqCmp.eq_of_compare hy)

/-- `abs(a.y - b.y) + abs(a.x - b.x)` -/
def distance (a b : Cell) : ℤ := (a.y - b.y).natAbs + (a.x - b.x).natAbs

@[simp] theorem add_x (a b : Cell) : (a + b).x = a.x + b.x := rfl

@[simp] theorem add_y (a b : Cell) : (a + b).y = a.y + b.y := rfl

theorem distance_eq_zero {a b : Cell} : a.distance b = 0 ↔ b = a := by
  constructor
  · intro h
    rw [distance] at h
    exact Cell.ext (by omega) (by omega)
  · rintro rfl
    simp [distance]

theorem distance_nonneg (a b : Cell) : 0 ≤ a.distance b := by
  rw [distance]
  omega

end Cell

/-- `struct PQNode` -/
structure PQNode where
  cost : ℤ
  pos : Cell
  deriving DecidableEq, Repr

/-- `front` -/
def front : List Cell := [⟨0, -1⟩, ⟨0, 1⟩, ⟨-1, 0⟩, ⟨1, 0⟩]

/-- The search of `FindPath`. -/
def search (canGo : Cell → Bool) (src dest : Cell) (maxDepth : Int32) :
    BestFirst Cell ℤ PQNode where
  src := src
  dest := dest
  neighbours pos := front.map (pos + ·)
  enters nextPos := canGo nextPos && decide (src.distance nextPos < maxDepth.toInt)
  cost pos := (dest.y - pos.y).natAbs + (dest.x - pos.x).natAbs
  detour pos := (pos.x - src.x).natAbs + (pos.y - src.y).natAbs
  score cost := cost
  top := Binary32.fltMax
  node := .mk
  nodeCost := PQNode.cost
  nodePos := PQNode.pos
  nodeCost_node _ _ := rfl
  nodePos_node _ _ := rfl

/-- `FindPath` with at most `fuel` passes of each loop: `none` when a loop is still going round, and
else what it returns and leaves in `path`. -/
def findPath (Q : PriorityQueue PQNode PQNode.cost) (canGo : Cell → Bool) (src dest : Cell)
    (path : List Cell) (fuel : ℕ) (maxDepth : Int32) : Option (Bool × List Cell) :=
  if maxDepth.toInt ≤ src.distance dest then some (false, path)
  else ((search canGo src dest maxDepth).run Q fuel).map (true, ·)

/-! ## The two programs -/

/-- `class Tilemap` -/
structure Tilemap where
  mapSize : Cell
  tiles : List (List Server.Tile)
  deriving DecidableEq

/-- `Tilemap::GetTileAt`; `none` is the null pointer. -/
def Tilemap.getTileAt (m : Tilemap) (pos : Cell) : Option Server.Tile :=
  if pos.x < 0 ∨ m.mapSize.x ≤ pos.x ∨ pos.y < 0 ∨ m.mapSize.y ≤ pos.y then none
  else do
    let row ← m.tiles[pos.y.toNat]?
    row[pos.x.toNat]?

/-- `class GameRoom`, as far as `FindPath` looks at it. -/
structure GameRoom where
  tilemap : Tilemap
  /-- `GetGameObjectAt(cellPos) != nullptr` -/
  occupied : Cell → Bool

/-- `GameRoom::CanGo` -/
def GameRoom.canGo (r : GameRoom) (cellPos : Cell) : Bool :=
  match r.tilemap.getTileAt cellPos with
  | none => false
  | some tile => if r.occupied cellPos then false else tile.walkable

/-- `GameRoom::FindPath` -/
def GameRoom.findPath (r : GameRoom) (Q : PriorityQueue PQNode PQNode.cost) (src dest : Cell)
    (path : List Cell) (fuel : ℕ) (maxDepth : Int32 := 10) : Option (Bool × List Cell) :=
  Exact.findPath Q r.canGo src dest path fuel maxDepth

/-- `class DevScene`, as far as `FindPath` looks at it. -/
structure DevScene where
  /-- The tilemap of `_tilemapActor`, if there is one. -/
  tilemap : Option Tilemap
  /-- `GetCreatureAt(cellPos) != nullptr` -/
  occupied : Cell → Bool

/-- `DevScene::CanGo` -/
def DevScene.canGo (s : DevScene) (cellPos : Cell) : Bool :=
  match s.tilemap with
  | none => false
  | some tm =>
    match tm.getTileAt cellPos with
    | none => false
    | some tile => if s.occupied cellPos then false else tile.walkable

/-- `DevScene::FindPath` -/
def DevScene.findPath (s : DevScene) (Q : PriorityQueue PQNode PQNode.cost) (src dest : Cell)
    (path : List Cell) (fuel : ℕ) (maxDepth : Int32 := 10) : Option (Bool × List Cell) :=
  Exact.findPath Q s.canGo src dest path fuel maxDepth

/-! ## What the search relies on -/

/-- A step to one of the four neighbours, which can be gone to and is near enough to `src`. -/
def Steps (canGo : Cell → Bool) (src : Cell) (maxDepth : Int32) (a b : Cell) : Prop :=
  (∃ dir ∈ front, b = a + dir) ∧ canGo b = true ∧ src.distance b < maxDepth.toInt

instance (canGo : Cell → Bool) (src : Cell) (maxDepth : Int32) :
    DecidableRel (Steps canGo src maxDepth) := fun _ _ =>
  inferInstanceAs (Decidable (_ ∧ _ ∧ _))

/-- The cells that such steps lead to from `src`. -/
def region (canGo : Cell → Bool) (src : Cell) (maxDepth : Int32) : Set Cell :=
  {c | Relation.ReflTransGen (Steps canGo src maxDepth) src c}

variable {canGo : Cell → Bool} {src dest : Cell} {maxDepth : Int32}
  {Q : PriorityQueue PQNode PQNode.cost}

theorem steps_search : (search canGo src dest maxDepth).Steps = Steps canGo src maxDepth := by
  funext a b
  simp only [BestFirst.Steps, search, Steps, List.mem_map, Bool.and_eq_true, decide_eq_true_eq,
    eq_comm (a := b)]

theorem reachable_search {c : Cell} :
    (search canGo src dest maxDepth).Reachable c ↔ c ∈ region canGo src maxDepth := by
  rw [BestFirst.Reachable, steps_search]
  rfl

theorem cost_search (c : Cell) : (search canGo src dest maxDepth).cost c = dest.distance c := rfl

theorem detour_search (c : Cell) :
    (search canGo src dest maxDepth).detour c = src.distance c := by
  simp only [search, Cell.distance]
  omega

theorem precedes_search {c d : Cell} : (search canGo src dest maxDepth).Precedes d c ↔
    dest.distance d < dest.distance c ∨ dest.distance d = dest.distance c ∧
      (src.distance d < src.distance c ∨ src.distance d = src.distance c ∧ (compare d c).isLE) := by
  rw [BestFirst.Precedes, cost_search, cost_search, detour_search, detour_search]
  rfl

theorem distance_of_mem_region {c : Cell} (h : c ∈ region canGo src maxDepth) :
    c = src ∨ src.distance c < maxDepth.toInt := by
  cases h with
  | refl => exact .inl rfl
  | tail _ hstep => exact .inr hstep.2.2

theorem finite_region : (region canGo src maxDepth).Finite := by
  have hinj : Function.Injective fun c : Cell => (c.x, c.y) := fun a b h =>
    Cell.ext (Prod.mk.inj h).1 (Prod.mk.inj h).2
  have hbox := (Set.finite_Icc (src.x - maxDepth.toInt) (src.x + maxDepth.toInt)).prod
    (Set.finite_Icc (src.y - maxDepth.toInt) (src.y + maxDepth.toInt))
  refine ((hbox.preimage hinj.injOn).union (Set.finite_singleton src)).subset fun c hc => ?_
  rcases distance_of_mem_region hc with rfl | hlt
  · exact .inr rfl
  · rw [Cell.distance] at hlt
    refine .inl ⟨⟨?_, ?_⟩, ?_, ?_⟩ <;> simp only <;> omega

theorem lawful_search (hnear : src.distance dest < maxDepth.toInt) :
    (search canGo src dest maxDepth).Lawful where
  nodup_neighbours pos := by
    refine List.Nodup.map (fun a b hab => ?_) (by decide)
    have hx := congrArg Cell.x hab
    have hy := congrArg Cell.y hab
    simp only [Cell.add_x, Cell.add_y, add_right_inj] at hx hy
    exact Cell.ext hx hy
  not_mem_neighbours pos h := by
    obtain ⟨dir, hdir, heq⟩ := List.mem_map.1 h
    have hx := congrArg Cell.x heq
    have hy := congrArg Cell.y heq
    simp only [Cell.add_x, Cell.add_y, add_eq_left] at hx hy
    obtain rfl : dir = ⟨0, 0⟩ := Cell.ext hx hy
    exact absurd hdir (by decide)
  finite := by
    simp only [reachable_search]
    exact finite_region
  cost_eq_zero _ _ _ _ := Cell.distance_eq_zero
  dest_least _ c _ hle := by
    have hself : dest.distance dest = 0 := Cell.distance_eq_zero.2 rfl
    have hle : dest.distance c ≤ dest.distance dest := hle
    rw [hself] at hle
    exact Cell.distance_eq_zero.1 (le_antisymm hle (Cell.distance_nonneg _ _))
  score_lt_top c hc := by
    -- no cost is as large as 2³²
    have htop : (2 : ℤ) ^ 32 < Binary32.fltMax := by decide
    have hmax := maxDepth.toInt_lt
    have hcost : dest.distance c ≤ src.distance dest + src.distance c := by
      simp only [Cell.distance]
      omega
    refine lt_trans (b := (2 : ℤ) ^ 32) ?_ htop
    show dest.distance c < 2 ^ 32
    rcases distance_of_mem_region (reachable_search.1 hc) with rfl | hlt
    · rw [Cell.distance_eq_zero.2 rfl] at hcost
      omega
    · omega

/-! ## What `FindPath` returns -/

/-- A path through the region to the cell that `FindPath` looks for: `dest` if it can be reached,
and else a cell nearest to it, of these one nearest to `src`. -/
structure IsPath (canGo : Cell → Bool) (src dest : Cell) (maxDepth : Int32) (path : List Cell)
    (d : Cell) : Prop where
  isWay : IsWay (Steps canGo src maxDepth) src d path
  nodup : path.Nodup
  mem_region : ∀ c ∈ path, c ∈ region canGo src maxDepth
  eq_dest : dest ∈ region canGo src maxDepth → d = dest
  nearest : dest ∉ region canGo src maxDepth → ∀ c ∈ region canGo src maxDepth,
    dest.distance d < dest.distance c ∨
      dest.distance d = dest.distance c ∧ src.distance d ≤ src.distance c

theorem isPath_of_run (hnear : src.distance dest < maxDepth.toInt) {fuel : ℕ} {path : List Cell}
    (h : (search canGo src dest maxDepth).run Q fuel = some path) :
    ∃ d, IsPath canGo src dest maxDepth path d := by
  obtain ⟨d, hgoal, hway, hnodup, hreach⟩ := BestFirst.spec (lawful_search hnear) h
  rw [steps_search] at hway
  refine ⟨d, hway, hnodup, fun c hc => reachable_search.1 (hreach c hc),
    fun hmem => hgoal.eq_dest (reachable_search.2 hmem), fun hnot c hc => ?_⟩
  have hgood := hgoal.precedes (fun hmem => hnot (reachable_search.1 hmem)) c
    (reachable_search.2 hc)
  rw [precedes_search] at hgood
  exact hgood.imp id fun ⟨heq, hor⟩ => ⟨heq, hor.elim le_of_lt fun hle => hle.1.le⟩

/-- Unless `dest` is too far `FindPath` returns what the search does. -/
theorem findPath_result (canGo : Cell → Bool) (src dest : Cell) (maxDepth : Int32)
    (Q : PriorityQueue PQNode PQNode.cost) (path : List Cell) :
    (∃ fuel, (findPath Q canGo src dest path fuel maxDepth).isSome) ∧
      ∀ fuel found path', findPath Q canGo src dest path fuel maxDepth = some (found, path') →
        (maxDepth.toInt ≤ src.distance dest → found = false ∧ path' = path) ∧
        (src.distance dest < maxDepth.toInt → found = true ∧ path' ≠ [] ∧
          ∃ d, IsPath canGo src dest maxDepth path' d) := by
  by_cases hfar : maxDepth.toInt ≤ src.distance dest
  · simp only [findPath, if_pos hfar]
    refine ⟨⟨0, rfl⟩, fun _ found path' h => ⟨fun _ => ?_, fun hnear => absurd hfar hnear.not_ge⟩⟩
    obtain ⟨rfl, rfl⟩ := Prod.mk.inj (Option.some.inj h)
    exact ⟨rfl, rfl⟩
  · have hnear := not_le.1 hfar
    simp only [findPath, if_neg hfar]
    constructor
    · have hB : (search canGo src dest maxDepth).Lawful := lawful_search hnear
      obtain ⟨fuel, hfuel⟩ := BestFirst.exists_run hB Q
      exact ⟨fuel, by rwa [Option.isSome_map]⟩
    · intro fuel found path' h
      obtain ⟨path'', hrun, heq⟩ := Option.map_eq_some_iff.1 h
      obtain ⟨rfl, rfl⟩ := Prod.mk.inj heq
      refine ⟨fun hle => absurd hle hfar, fun _ => ⟨rfl, ?_, isPath_of_run hnear hrun⟩⟩
      obtain ⟨d, hpath⟩ := isPath_of_run hnear hrun
      intro hnil
      have hhead := hpath.isWay.head?_eq
      rw [hnil] at hhead
      cases hhead

/-- **`GameRoom::FindPath`** ends. If `dest` is too far it returns false and leaves `path` alone,
and else it returns true with a path that leads where it should. -/
theorem GameRoom.findPath_spec (r : GameRoom) (Q : PriorityQueue PQNode PQNode.cost)
    (src dest : Cell) (maxDepth : Int32) (path : List Cell) :
    (∃ fuel, (r.findPath Q src dest path fuel maxDepth).isSome) ∧
      ∀ fuel found path', r.findPath Q src dest path fuel maxDepth = some (found, path') →
        (maxDepth.toInt ≤ src.distance dest → found = false ∧ path' = path) ∧
        (src.distance dest < maxDepth.toInt → found = true ∧ path' ≠ [] ∧
          ∃ d, IsPath r.canGo src dest maxDepth path' d) :=
  findPath_result r.canGo src dest maxDepth Q path

end Zelda.Exact
