import Zelda.Foundations.GreedyWays
import Zelda.Server.ExactFindPath

/-!
# When `FindPath` returns a shortest path

The comments of `FindPath` speak of A*, with a priority `F = G + H` and neighbours skipped when a
faster way to them was found. The priority it stores is `H` alone, the distance to `dest`, and so is
what it compares to skip. Which paths it can return is decided by the walls, and where several cells
are equally far from `dest`, by the order in which the queue returns them, which is left open.

Main result: `findPath_isShortest_iff`. All these paths are shortest ones if and only if all greedy
ways to the goal cell are. `GameRoom::FindPath` and `DevScene::FindPath` are its two cases.
-/

namespace Zelda.Exact

variable {canGo : Cell → Bool} {src dest d : Cell} {maxDepth : Int32}

/-- The cell that the path leads to: `dest` if it can be reached, and else the cell nearest to it,
of several the one nearest to `src`, and of these the one that `VectorInt::operator<` puts first. -/
structure IsGoal (canGo : Cell → Bool) (src dest : Cell) (maxDepth : Int32) (d : Cell) : Prop where
  mem_region : d ∈ region canGo src maxDepth
  eq_dest : dest ∈ region canGo src maxDepth → d = dest
  first : dest ∉ region canGo src maxDepth → ∀ c ∈ region canGo src maxDepth,
    dest.distance d < dest.distance c ∨ dest.distance d = dest.distance c ∧
      (src.distance d < src.distance c ∨ src.distance d = src.distance c ∧ (compare d c).isLE)

theorem isGoal_search :
    (search canGo src dest maxDepth).IsGoal d ↔ IsGoal canGo src dest maxDepth d := by
  constructor
  · intro h
    refine ⟨reachable_search.1 h.reachable, fun hmem => h.eq_dest (reachable_search.2 hmem),
      fun hnot c hc => precedes_search.1 (h.precedes (fun hreach => ?_) c (reachable_search.2 hc))⟩
    exact hnot (reachable_search.1 hreach)
  · intro h
    refine ⟨reachable_search.2 h.mem_region, fun hreach => h.eq_dest (reachable_search.1 hreach),
      fun hnot c hc => precedes_search.2 (h.first (fun hmem => ?_) c (reachable_search.1 hc))⟩
    exact hnot (reachable_search.2 hmem)

/-- **The paths that `FindPath` returns** are the greedy ways to the goal cell. -/
theorem exists_findPath_iff (hnear : src.distance dest < maxDepth.toInt) {path₀ path : List Cell} :
    (∃ (Q : PriorityQueue PQNode PQNode.cost) (fuel : ℕ),
        findPath Q canGo src dest path₀ fuel maxDepth = some (true, path)) ↔
      ∃ d, IsGoal canGo src dest maxDepth d ∧ IsWay (Steps canGo src maxDepth) src d path ∧
        Greedy (Steps canGo src maxDepth) dest.distance src ∅ path := by
  have hrun : ∀ (Q : PriorityQueue PQNode PQNode.cost) (fuel : ℕ),
      findPath Q canGo src dest path₀ fuel maxDepth = some (true, path) ↔
        (search canGo src dest maxDepth).run Q fuel = some path := by
    intro Q fuel
    rw [findPath, if_neg hnear.not_ge, Option.map_eq_some_iff]
    simp only [Prod.mk.injEq, true_and, exists_eq_right]
  have hsteps : (search canGo src dest maxDepth).Steps = Steps canGo src maxDepth := steps_search
  simp only [hrun, ← isGoal_search, ← hsteps]
  exact BestFirst.exists_run_iff (lawful_search hnear)

/-- **The paths are shortest ones** if and only if every greedy way to the goal cell is a shortest
one. A way is greedy if, when a cell on it has been taken together with all cells nearer to `dest`
than itself that lead on from those taken before, the next cell on it has still not been seen. -/
theorem findPath_isShortest_iff (canGo : Cell → Bool) (src dest : Cell) (maxDepth : Int32)
    (path₀ : List Cell) (hnear : src.distance dest < maxDepth.toInt) :
    (∀ (Q : PriorityQueue PQNode PQNode.cost) (fuel : ℕ) (path : List Cell),
        findPath Q canGo src dest path₀ fuel maxDepth = some (true, path) →
          IsShortest (Steps canGo src maxDepth) src path) ↔
      ∀ d way, IsGoal canGo src dest maxDepth d → IsWay (Steps canGo src maxDepth) src d way →
        Greedy (Steps canGo src maxDepth) dest.distance src ∅ way →
          IsShortest (Steps canGo src maxDepth) src way := by
  constructor
  · intro h d way hgoal hway hgreedy
    obtain ⟨Q, fuel, hpath⟩ := (exists_findPath_iff hnear).2 ⟨d, hgoal, hway, hgreedy⟩
    exact h Q fuel way hpath
  · intro h Q fuel path hpath
    obtain ⟨d, hgoal, hway, hgreedy⟩ := (exists_findPath_iff hnear).1 ⟨Q, fuel, hpath⟩
    exact h d path hgoal hway hgreedy

/-! ## A detour -/

/-- Sixteen tiles, of which three cannot be walked on. -/
def detourTilemap : Tilemap where
  mapSize := ⟨4, 4⟩
  tiles := [[{}, {}, {}, {}],
    [{}, { walkable := false }, {}, {}],
    [{}, { walkable := false }, {}, {}],
    [{}, {}, {}, { walkable := false }]]

/-- A monster at (0, 2) and a player at (2, 1). -/
def detourOccupied (cellPos : Cell) : Bool := cellPos = ⟨0, 2⟩ || cellPos = ⟨2, 1⟩

def detourRoom : GameRoom := ⟨detourTilemap, detourOccupied⟩

def detourScene : DevScene := ⟨some detourTilemap, detourOccupied⟩

/-- The path that both programs return, over the top of the map. -/
def detour : List Cell :=
  [⟨0, 2⟩, ⟨0, 1⟩, ⟨0, 0⟩, ⟨1, 0⟩, ⟨2, 0⟩, ⟨3, 0⟩, ⟨3, 1⟩, ⟨3, 2⟩, ⟨2, 2⟩]

/-- The path below the wall, half as long. -/
theorem isWay_short : IsWay (Steps detourRoom.canGo ⟨0, 2⟩ 10) ⟨0, 2⟩ ⟨2, 2⟩
    [⟨0, 2⟩, ⟨0, 3⟩, ⟨1, 3⟩, ⟨2, 3⟩, ⟨2, 2⟩] where
  head?_eq := rfl
  isChain := by decide +kernel
  getLast?_eq := rfl

theorem not_isShortest_detour : ¬ IsShortest (Steps detourRoom.canGo ⟨0, 2⟩ 10) ⟨0, 2⟩ detour :=
  fun hshort => absurd (hshort _ _ rfl isWay_short) (by decide)

/-- On this map a greedy way to (2, 2) goes round the wall. -/
theorem findPath_isShortest_iff_detour :
    ¬ ∀ d way, IsGoal detourRoom.canGo ⟨0, 2⟩ ⟨2, 1⟩ 10 d →
      IsWay (Steps detourRoom.canGo ⟨0, 2⟩ 10) ⟨0, 2⟩ d way →
        Greedy (Steps detourRoom.canGo ⟨0, 2⟩ 10) (Cell.distance ⟨2, 1⟩) ⟨0, 2⟩ ∅ way →
          IsShortest (Steps detourRoom.canGo ⟨0, 2⟩ 10) ⟨0, 2⟩ way := by
  have hiff := findPath_isShortest_iff detourRoom.canGo ⟨0, 2⟩ ⟨2, 1⟩ 10 [] (by decide)
  exact fun h => not_isShortest_detour
    (hiff.2 h (.selection PQNode.cost) 20 detour (by decide +kernel))

/-- **`FindPath` need not return a shortest path**: in both programs the monster is sent round the
wall the long way. -/
theorem not_findPath_isShortest :
    (detourRoom.findPath (.selection PQNode.cost) ⟨0, 2⟩ ⟨2, 1⟩ [] 20 = some (true, detour) ∧
      ¬ IsShortest (Steps detourRoom.canGo ⟨0, 2⟩ 10) ⟨0, 2⟩ detour) ∧
    (detourScene.findPath (.selection PQNode.cost) ⟨0, 2⟩ ⟨2, 1⟩ [] 20 = some (true, detour) ∧
      ¬ IsShortest (Steps detourScene.canGo ⟨0, 2⟩ 10) ⟨0, 2⟩ detour) :=
  ⟨⟨by decide +kernel, not_isShortest_detour⟩, ⟨by decide +kernel, not_isShortest_detour⟩⟩

end Zelda.Exact
