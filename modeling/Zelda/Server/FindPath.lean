import Zelda.Foundations.Loop
import Zelda.Foundations.PriorityQueue
import Zelda.Server.GameRoom

/-!
# `GameRoom::FindPath`

A best-first search from `src` towards `dest` inside the cells nearer to `src` than `maxDepth`, and
a walk back along the parent links. Both loops are given by their bodies (`searchBody`, `walkBody`);
`findPath` runs them with a bound on the number of passes.

The cost of a cell is its distance to `dest`, and a stored cost of 0 also means that the cell has
not been seen.

Main lemma: `findPath_singleton`, a path of one cell ends where it starts. When the two loops end is
the subject of `Server/FindPathTermination`.
-/

namespace Zelda.Server

open Std

/-- `struct PQNode` -/
structure PQNode where
  cost : Int32
  pos : Vec2Int
  deriving DecidableEq, Repr

/-- The containers of the search. An entry that is read but not there is 0, as with
`map::operator[]`. -/
structure SearchState where
  /-- `priority_queue<PQNode, vector<PQNode>, greater<PQNode>>` -/
  pq : List PQNode
  best : ExtTreeMap Vec2Int Int32
  parent : ExtTreeMap Vec2Int Vec2Int

/-- `front` -/
def front : List Vec2Int := [⟨0, -1⟩, ⟨0, 1⟩, ⟨-1, 0⟩, ⟨1, 0⟩]

section

variable (Q : PriorityQueue PQNode PQNode.cost) (r : GameRoom) (src dest : Vec2Int)
  (maxDepth : Int32)

/-- The containers before the search: `src` is its own parent. -/
def searchStart : SearchState where
  pq := Q.push ⟨dest.distance src, src⟩ []
  best := (∅ : ExtTreeMap Vec2Int Int32).insert src (dest.distance src)
  parent := (∅ : ExtTreeMap Vec2Int Vec2Int).insert src src

/-- The cell may be searched: one can go there, and it is near enough to `src`. -/
def inReach (cell : Vec2Int) : Bool := r.canGo cell && decide (src.distance cell < maxDepth)

/-- One direction of the loop over the neighbours of `pos`. -/
def visit (pos : Vec2Int) (st : SearchState) (dir : Vec2Int) : SearchState :=
  let nextPos := pos + dir
  if r.canGo nextPos = false then st
  else if maxDepth ≤ src.distance nextPos then st
  else
    let cost := dest.distance nextPos
    let bestValue := st.best.getD nextPos 0
    if bestValue ≠ 0 ∧ bestValue ≤ cost then st
    else
      { pq := Q.push ⟨cost, nextPos⟩ st.pq
        best := st.best.insert nextPos cost
        parent := st.parent.insert nextPos pos }

/-- A pass of the search; it leaves with whether `dest` was found. -/
def searchBody (st : SearchState) : SearchState ⊕ (Bool × SearchState) :=
  match Q.pop st.pq with
  | none => .inr (false, st)
  | some (node, pq) =>
    let st := { st with pq := pq }
    if st.best.getD node.pos 0 < node.cost then .inl st
    else if node.pos = dest then .inr (true, st)
    else .inl (front.foldl (visit Q r src dest maxDepth node.pos) st)

/-- One entry of the loop that looks for a substitute when `dest` was not found: the cell so far
and the `float` of its score. -/
def closest (best : Vec2Int × ℤ) (item : Vec2Int × Int32) : Vec2Int × ℤ :=
  let score := Binary32.ofInt item.2.toInt
  if best.2 = score then
    let dist1 := (best.1.x - src.x).abs + (best.1.y - src.y).abs
    let dist2 := (item.1.x - src.x).abs + (item.1.y - src.y).abs
    if dist2 < dist1 then (item.1, best.2) else best
  else if score < best.2 then (item.1, score)
  else best

/-- The cell the path leads to. -/
def destination (found : Bool) (st : SearchState) : Vec2Int :=
  if found then dest else (st.best.toList.foldl (closest src) (dest, Binary32.fltMax)).1

/-- A pass of the walk along the parent links. -/
def walkBody (parent : ExtTreeMap Vec2Int Vec2Int) :
    List Vec2Int × Vec2Int → (List Vec2Int × Vec2Int) ⊕ List Vec2Int := fun (path, pos) =>
  let path := path ++ [pos]
  if pos = parent.getD pos ⟨0, 0⟩ then .inr path else .inl (path, parent.getD pos ⟨0, 0⟩)

/-- `GameRoom::FindPath` with at most `fuel` passes of each loop: `none` when a loop is still going
round, `some none` when it returns false and leaves the path alone, and else the path. -/
def findPath (fuel : ℕ) (maxDepth : Int32 := 10) : Option (Option (List Vec2Int)) :=
  if maxDepth ≤ src.distance dest then
    some none
  else do
    let (found, st) ← Loop.run (searchBody Q r src dest maxDepth) fuel (searchStart Q src dest)
    let path ← Loop.run (walkBody st.parent) fuel ([], destination src dest found st)
    some (some path.reverse)

end

variable {Q : PriorityQueue PQNode PQNode.cost} {r : GameRoom} {src dest pos : Vec2Int}
  {maxDepth : Int32} {st : SearchState} {found : Bool}

/-! ## The containers -/

theorem visit_eq (st : SearchState) (dir : Vec2Int) :
    visit Q r src dest maxDepth pos st dir =
      if inReach r src maxDepth (pos + dir) = true ∧
          (st.best.getD (pos + dir) 0 = 0 ∨
            dest.distance (pos + dir) < st.best.getD (pos + dir) 0) then
        { pq := Q.push ⟨dest.distance (pos + dir), pos + dir⟩ st.pq
          best := st.best.insert (pos + dir) (dest.distance (pos + dir))
          parent := st.parent.insert (pos + dir) pos }
      else st := by
  simp only [visit, inReach, Bool.and_eq_true, decide_eq_true_eq]
  by_cases h₁ : r.canGo (pos + dir) = true
  · by_cases h₂ : src.distance (pos + dir) < maxDepth
    · have h₂' : ¬ maxDepth ≤ src.distance (pos + dir) := Int32.not_le.2 h₂
      by_cases h₃ : st.best.getD (pos + dir) 0 = 0
      · simp [h₁, h₂, h₂', h₃]
      · by_cases h₄ : st.best.getD (pos + dir) 0 ≤ dest.distance (pos + dir)
        · simp [h₁, h₂', h₃, h₄, Int32.not_lt.2 h₄]
        · simp [h₁, h₂, h₂', h₃, h₄, Int32.not_le.1 h₄]
    · simp [h₁, h₂, Int32.not_lt.1 h₂]
  · simp [h₁]

theorem front_ne {dir : Vec2Int} (h : dir ∈ front) : pos + dir ≠ pos := by
  intro heq
  have hx : pos.x + dir.x = pos.x := congrArg Vec2Int.x heq
  have hy : pos.y + dir.y = pos.y := congrArg Vec2Int.y heq
  have hdx : dir.x = 0 := by simpa using hx
  have hdy : dir.y = 0 := by simpa using hy
  have hdir : dir = ⟨0, 0⟩ := Vec2Int.ext hdx hdy
  rw [hdir] at h
  exact absurd h (by decide)

/-- What the search keeps: every cell it has a cost for has a parent, which is another cell unless
the cell is `src`; and `src` is among them. -/
structure SearchState.Rooted (src : Vec2Int) (st : SearchState) : Prop where
  mem_parent : ∀ c ∈ st.best, c ∈ st.parent
  pq_mem : ∀ node ∈ st.pq, node.pos ∈ st.best
  src_mem : src ∈ st.best
  eq_src : ∀ c, st.parent[c]? = some c → c = src

theorem rooted_searchStart : (searchStart Q src dest).Rooted src where
  mem_parent c hc := by
    simp only [searchStart, ExtTreeMap.mem_insert] at hc ⊢
    simpa using hc
  pq_mem node hnode := by
    rw [searchStart, Q.mem_push] at hnode
    rcases hnode with rfl | hnode
    · exact ExtTreeMap.mem_insert_self
    · cases hnode
  src_mem := ExtTreeMap.mem_insert_self
  eq_src c hc := by
    rw [searchStart, ExtTreeMap.getElem?_insert] at hc
    split at hc
    · rename_i h
      exact (LawfulEqCmp.eq_of_compare h).symm
    · simp at hc

theorem SearchState.Rooted.visit (h : st.Rooted src) {dir : Vec2Int} (hdir : dir ∈ front) :
    (visit Q r src dest maxDepth pos st dir).Rooted src := by
  rw [visit_eq]
  split
  · refine ⟨?_, ?_, ?_, ?_⟩
    · intro c hc
      rw [ExtTreeMap.mem_insert] at hc ⊢
      exact hc.imp_right (h.mem_parent c)
    · intro node hnode
      rw [ExtTreeMap.mem_insert]
      rcases (Q.mem_push).1 hnode with rfl | hnode
      · exact .inl ReflCmp.compare_self
      · exact .inr (h.pq_mem node hnode)
    · exact ExtTreeMap.mem_insert.2 (.inr h.src_mem)
    · intro c hc
      rw [ExtTreeMap.getElem?_insert] at hc
      split at hc
      · rename_i heq
        obtain rfl := LawfulEqCmp.eq_of_compare heq
        exact absurd (Option.some.inj hc).symm (front_ne hdir)
      · exact h.eq_src c hc
  · exact h

theorem SearchState.Rooted.foldl_visit {dirs : List Vec2Int} (hdirs : ∀ dir ∈ dirs, dir ∈ front)
    (h : st.Rooted src) :
    (dirs.foldl (Server.visit Q r src dest maxDepth pos) st).Rooted src := by
  induction dirs generalizing st with
  | nil => exact h
  | cons dir dirs ih =>
    exact ih (fun d hd => hdirs d (List.mem_cons_of_mem _ hd))
      (h.visit (hdirs dir List.mem_cons_self))

theorem rooted_of_returns {res : Bool × SearchState}
    (h : Loop.Returns (searchBody Q r src dest maxDepth) (searchStart Q src dest) res) :
    res.2.Rooted src ∧ (res.1 = true → dest ∈ res.2.best) := by
  refine Loop.Returns.of_invariant (P := SearchState.Rooted src)
    (Q := fun res => res.2.Rooted src ∧ (res.1 = true → dest ∈ res.2.best)) ?_ ?_
    rooted_searchStart h
  · intro st st' hst hb
    unfold searchBody at hb
    split at hb
    · cases hb
    · rename_i node pq hpop
      have hpq : ({ st with pq := pq } : SearchState).Rooted src :=
        { hst with pq_mem := fun n hn => hst.pq_mem n ((Q.mem_of_pop hpop).2 (.inr hn)) }
      simp only at hb
      split at hb
      · cases hb
        exact hpq
      · split at hb
        · cases hb
        · cases hb
          exact hpq.foldl_visit fun _ h => h
  · intro st res hst hb
    unfold searchBody at hb
    split at hb
    · cases hb
      exact ⟨hst, fun h => by cases h⟩
    · rename_i node pq hpop
      simp only at hb
      split at hb
      · cases hb
      · split at hb
        · rename_i hdest
          cases hb
          refine ⟨⟨hst.mem_parent, fun n hn => hst.pq_mem n ((Q.mem_of_pop hpop).2 (.inr hn)),
            hst.src_mem, hst.eq_src⟩, fun _ => ?_⟩
          rw [← hdest]
          exact hst.pq_mem node ((Q.mem_of_pop hpop).2 (.inl rfl))
        · cases hb

/-! ## The substitute for a destination that was not found -/

theorem foldl_closest_mem {l : List (Vec2Int × Int32)} {cells : List Vec2Int}
    {best : Vec2Int × ℤ} (hl : ∀ item ∈ l, item.1 ∈ cells)
    (hbest : best.1 ∈ cells ∨ best.2 = Binary32.fltMax ∧ l ≠ []) :
    (l.foldl (closest src) best).1 ∈ cells := by
  induction l generalizing best with
  | nil =>
    rcases hbest with h | ⟨-, h⟩
    · exact h
    · exact absurd rfl h
  | cons item l ih =>
    have hitem : item.1 ∈ cells := hl item List.mem_cons_self
    have hscore := Binary32.ofInt_lt_fltMax item.2
    refine ih (fun i hi => hl i (List.mem_cons_of_mem _ hi)) (.inl ?_)
    unfold closest
    -- before the first entry the score is FLT_MAX, and every entry beats that
    rcases hbest with h | ⟨h, -⟩
    · simp only
      split_ifs <;> assumption
    · simp only [h, if_neg hscore.ne', if_pos hscore]
      exact hitem

theorem SearchState.Rooted.destination_mem (h : st.Rooted src)
    (hfound : found = true → dest ∈ st.best) : destination src dest found st ∈ st.best := by
  unfold destination
  split
  · rename_i ht
    exact hfound ht
  · rw [← ExtTreeMap.mem_keys]
    refine foldl_closest_mem ?_ (.inr ⟨rfl, ?_⟩)
    · intro item hitem
      rw [← ExtTreeMap.map_fst_toList_eq_keys]
      exact List.mem_map_of_mem hitem
    · intro hnil
      have hempty : st.best.keys = [] := by
        rw [← ExtTreeMap.map_fst_toList_eq_keys, hnil]
        rfl
      have hsrc := ExtTreeMap.mem_keys.2 h.src_mem
      rw [hempty] at hsrc
      cases hsrc

/-! ## The path -/

/-- A walk of one cell starts at a cell that is its own parent. -/
theorem walk_singleton {parent : ExtTreeMap Vec2Int Vec2Int} {p : Vec2Int}
    (h : Loop.Returns (walkBody parent) ([], pos) [p]) :
    p = pos ∧ pos = parent.getD pos ⟨0, 0⟩ := by
  by_cases hpos : pos = parent.getD pos ⟨0, 0⟩
  · have hb : walkBody parent ([], pos) = .inr [pos] := if_pos hpos
    have hp := h.unique (Loop.returns_of_inr hb)
    exact ⟨List.singleton_inj.1 hp, hpos⟩
  · have hb : walkBody parent ([], pos) = .inl ([pos], parent.getD pos ⟨0, 0⟩) := if_neg hpos
    rw [Loop.returns_iff_of_inl hb] at h
    -- from here on the path has a first element and gets another one
    have hlen : 1 < [p].length := by
      refine Loop.Returns.of_invariant (P := fun s => 0 < s.1.length)
        (Q := fun path => 1 < path.length) ?_ ?_ (Nat.one_pos) h
      · intro s s' hs hb'
        simp only [walkBody] at hb'
        split at hb'
        · cases hb'
        · cases hb'
          simp
      · intro s path hs hb'
        simp only [walkBody] at hb'
        split at hb'
        · cases hb'
          simpa using hs
        · cases hb'
    simp at hlen

theorem findPath_eq_some {fuel : ℕ} {path : List Vec2Int}
    (h : findPath Q r src dest fuel maxDepth = some (some path)) :
    ∃ found st walk, Loop.Returns (searchBody Q r src dest maxDepth) (searchStart Q src dest)
        (found, st) ∧
      Loop.Returns (walkBody st.parent) ([], destination src dest found st) walk ∧
      path = walk.reverse := by
  unfold findPath at h
  split at h
  · cases h
  · simp only [Option.bind_eq_bind, Option.bind_eq_some_iff, Option.some.injEq] at h
    obtain ⟨⟨found, st⟩, hs, walk, hw, rfl⟩ := h
    exact ⟨found, st, walk, ⟨fuel, hs⟩, ⟨fuel, hw⟩, rfl⟩

/-- **A path of one cell is the cell it starts from.** -/
theorem findPath_singleton {fuel : ℕ} {p : Vec2Int}
    (h : findPath Q r src dest fuel maxDepth = some (some [p])) : p = src := by
  obtain ⟨found, st, walk, hs, hw, hp⟩ := findPath_eq_some h
  obtain rfl : walk = [p] := by simpa using (List.reverse_eq_iff.1 hp.symm)
  obtain ⟨hrooted, hfound⟩ := rooted_of_returns hs
  obtain ⟨rfl, hself⟩ := walk_singleton hw
  have hmem := hrooted.mem_parent _ (hrooted.destination_mem hfound)
  rw [ExtTreeMap.mem_iff_isSome_getElem?, Option.isSome_iff_exists] at hmem
  obtain ⟨q, hq⟩ := hmem
  rw [ExtTreeMap.getD_eq_getD_getElem?, hq, Option.getD_some] at hself
  exact hrooted.eq_src _ (hself ▸ hq)

end Zelda.Server
