import Zelda.Foundations.BestFirst
import Zelda.Server.Search

/-!
# `FindPath` as a greedy best-first search

With its `int32` arithmetic `GameRoom::FindPath` is the search of `BestFirst` on `Vec2Int`.

Main results: `findPath_eq`, and `findPath_isWay`, which follows from it for all costs, also where
the arithmetic wraps around.
-/

namespace Zelda.Server

open Std

instance : Inhabited Vec2Int := ⟨0, 0⟩

namespace Int32Order

scoped instance linearOrder : LinearOrder Int32 where
  le_refl := Int32.le_refl
  le_trans _ _ _ := Int32.le_trans
  le_antisymm _ _ := Int32.le_antisymm
  le_total := Int32.le_total
  lt_iff_le_not_ge a b := by
    rw [Int32.not_le]
    exact ⟨fun h => ⟨Int32.le_of_lt h, h⟩, fun h => h.2⟩
  toDecidableLE := inferInstance
  toDecidableEq := inferInstance
  toDecidableLT := inferInstance

end Int32Order

open scoped Int32Order

/-- The search of `FindPath`. -/
def greedySearch (r : GameRoom) (src dest : Vec2Int) (maxDepth : Int32) :
    BestFirst Vec2Int Int32 PQNode where
  src := src
  dest := dest
  neighbours pos := front.map (pos + ·)
  enters := inReach r src maxDepth
  cost pos := dest.distance pos
  detour pos := (pos - src).manhattan
  score cost := Binary32.ofInt cost.toInt
  top := Binary32.fltMax
  node := .mk
  nodeCost := PQNode.cost
  nodePos := PQNode.pos
  nodeCost_node _ _ := rfl
  nodePos_node _ _ := rfl

/-- The containers of `FindPath` as those of the search. -/
def SearchState.toContainers (st : SearchState) :
    BestFirst.Containers Vec2Int Int32 PQNode :=
  ⟨st.pq, st.best, st.parent⟩

variable {Q : PriorityQueue PQNode PQNode.cost} {r : GameRoom} {src dest : Vec2Int}
  {maxDepth : Int32}

theorem toContainers_visit (pos : Vec2Int) (st : SearchState) (dir : Vec2Int) :
    (visit Q r src dest maxDepth pos st dir).toContainers =
      (greedySearch r src dest maxDepth).visit Q pos st.toContainers (pos + dir) := by
  simp only [visit, BestFirst.visit, greedySearch, inReach, SearchState.toContainers,
    BestFirst.enter]
  by_cases h₁ : r.canGo (pos + dir) = true
  · by_cases h₂ : src.distance (pos + dir) < maxDepth
    · have h₂' : ¬ maxDepth ≤ src.distance (pos + dir) := Int32.not_le.2 h₂
      simp only [h₁, h₂, h₂', decide_true, Bool.and_self, Bool.true_eq_false, if_false]
      split
      · rename_i hseen
        exact (if_pos hseen).symm
      · rename_i hnew
        exact (if_neg hnew).symm
    · simp [h₁, h₂, Int32.not_lt.1 h₂]
  · simp [h₁]

theorem toContainers_foldl_visit (pos : Vec2Int) (dirs : List Vec2Int) (st : SearchState) :
    (dirs.foldl (visit Q r src dest maxDepth pos) st).toContainers =
      (dirs.map (pos + ·)).foldl ((greedySearch r src dest maxDepth).visit Q pos)
        st.toContainers := by
  induction dirs generalizing st with
  | nil => rfl
  | cons dir dirs ih =>
    rw [List.foldl_cons, ih, toContainers_visit, List.map_cons, List.foldl_cons]

theorem searchBody_toContainers (st : SearchState) :
    (greedySearch r src dest maxDepth).searchBody Q st.toContainers =
      (searchBody Q r src dest maxDepth st).map SearchState.toContainers
        (Prod.map id SearchState.toContainers) := by
  unfold searchBody BestFirst.searchBody
  have hpq : st.toContainers.pq = st.pq := rfl
  rw [hpq]
  cases Q.pop st.pq with
  | none => rfl
  | some top =>
    obtain ⟨node, pq⟩ := top
    simp only
    by_cases hskip : st.best.getD node.pos 0 < node.cost
    · rw [if_pos hskip]
      exact if_pos hskip
    · rw [if_neg hskip]
      refine (if_neg hskip).trans ?_
      by_cases hdest : node.pos = dest
      · rw [if_pos hdest]
        exact if_pos hdest
      · rw [if_neg hdest, Sum.map_inl, toContainers_foldl_visit]
        exact if_neg hdest

/-- **`FindPath` is the greedy search.** -/
theorem findPath_eq (fuel : ℕ) : findPath Q r src dest fuel maxDepth =
    if maxDepth ≤ src.distance dest then some none
    else ((greedySearch r src dest maxDepth).run Q fuel).map some := by
  have hrun : Loop.run ((greedySearch r src dest maxDepth).searchBody Q) fuel
      ((greedySearch r src dest maxDepth).start Q) =
      (Loop.run (searchBody Q r src dest maxDepth) fuel (searchStart Q src dest)).map
        (Prod.map id SearchState.toContainers) := by
    have hstart : (greedySearch r src dest maxDepth).start Q =
        (searchStart Q src dest).toContainers := rfl
    rw [hstart]
    exact Loop.run_map _ _ searchBody_toContainers fuel _
  unfold findPath BestFirst.run
  rw [hrun]
  split
  · rfl
  · cases Loop.run (searchBody Q r src dest maxDepth) fuel (searchStart Q src dest) with
    | none => rfl
    | some res =>
      obtain ⟨found, st⟩ := res
      simp only [Option.bind_eq_bind, Option.bind_some, Option.map_some, Prod.map, id]
      have hdest : (greedySearch r src dest maxDepth).destination found st.toContainers =
          destination src dest found st := rfl
      have hwalk : BestFirst.walkBody st.toContainers.parent = walkBody st.parent := rfl
      rw [hdest, hwalk]
      cases Loop.run (walkBody st.parent) fuel ([], destination src dest found st) <;> rfl

theorem steps_greedySearch :
    (greedySearch r src dest maxDepth).Steps = Steps r src maxDepth := by
  funext a b
  simp only [BestFirst.Steps, greedySearch, Steps, mem_neighbours]

theorem run_of_findPath {fuel : ℕ} {path : List Vec2Int}
    (h : findPath Q r src dest fuel maxDepth = some (some path)) :
    (greedySearch r src dest maxDepth).run Q fuel = some path := by
  rw [findPath_eq] at h
  split at h
  · cases h
  · obtain ⟨_, hrun, heq⟩ := Option.map_eq_some_iff.1 h
    rwa [← Option.some.inj heq]

theorem not_mem_neighbours (c : Vec2Int) : c ∉ (greedySearch r src dest maxDepth).neighbours c := by
  intro hc
  obtain ⟨dir, hdir, heq⟩ := mem_neighbours.1 hc
  exact front_ne hdir heq.symm

/-- **A path starts at `src`** and takes steps to cells in reach. -/
theorem findPath_isWay {fuel : ℕ} {path : List Vec2Int}
    (h : findPath Q r src dest fuel maxDepth = some (some path)) :
    ∃ d, IsWay (Steps r src maxDepth) src d path := by
  have hway := BestFirst.isWay_of_run (fun k => Binary32.ofInt_lt_fltMax k) not_mem_neighbours
    (run_of_findPath h)
  rwa [steps_greedySearch] at hway

end Zelda.Server
