import Zelda.Foundations.LinkedSearch
import Zelda.Server.FindPath

/-!
# The search of `FindPath` as a search with parent links

A cell has cost 0 also when it has not been seen, so a cell whose cost is 0 is entered again and
again. The costs themselves are the distances to `dest`, whatever way the search came (`Costed`), so
no node is ever skipped and each pass takes a node in the sense of `LinkedSearch`.

Main lemmas: `expands_of_searchBody`, a pass of the search takes a pending cell of least cost, and
`search_terminates`, the search ends wherever only one cell of cost 0 can be entered.
-/

namespace Zelda.Server

open Std

/-- From `a` the search goes on to `b`. -/
def Steps (r : GameRoom) (src : Vec2Int) (maxDepth : Int32) (a b : Vec2Int) : Prop :=
  (∃ dir ∈ front, b = a + dir) ∧ inReach r src maxDepth b = true

/-- The cells the search can come to. -/
abbrev Reachable (r : GameRoom) (src : Vec2Int) (maxDepth : Int32) : Vec2Int → Prop :=
  LinkedSearch.Reachable (Steps r src maxDepth) src

namespace SearchState

/-- `c` is entered when the search comes to it. -/
def Open (r : GameRoom) (src dest : Vec2Int) (maxDepth : Int32) (st : SearchState) (c : Vec2Int) :
    Prop :=
  inReach r src maxDepth c = true ∧ (c ∉ st.best ∨ dest.distance c = 0)

/-- The costs are the distances to `dest`. -/
structure Costed (dest : Vec2Int) (st : SearchState) : Prop where
  best_eq : ∀ c ∈ st.best, st.best.getD c 0 = dest.distance c
  cost_eq : ∀ node ∈ st.pq, node.cost = dest.distance node.pos

/-- The parent that the walk back reads. -/
def link (st : SearchState) (c : Vec2Int) : Vec2Int := st.parent.getD c ⟨0, 0⟩

/-- The cells of the queue, the cells with a cost, and the parents. -/
def linked (st : SearchState) : LinkedSearch Vec2Int where
  pending := {c | ∃ node ∈ st.pq, node.pos = c}
  seen := {c | c ∈ st.best}
  link := st.link

/-- `st'` is `st` with the open ones among `cells` entered from `pos`. -/
structure Visited (r : GameRoom) (src dest : Vec2Int) (maxDepth : Int32) (pos : Vec2Int)
    (cells : List Vec2Int) (st st' : SearchState) : Prop where
  costed : st'.Costed dest
  mem_best : ∀ c, c ∈ st'.best ↔ c ∈ st.best ∨ c ∈ cells ∧ st.Open r src dest maxDepth c
  mem_pending : ∀ c, c ∈ st'.linked.pending ↔
    c ∈ st.linked.pending ∨ c ∈ cells ∧ st.Open r src dest maxDepth c
  link_of_open : ∀ c ∈ cells, st.Open r src dest maxDepth c → st'.link c = pos
  link_of_not_open : ∀ c, ¬ (c ∈ cells ∧ st.Open r src dest maxDepth c) → st'.link c = st.link c

end SearchState

open SearchState

section

variable {Q : PriorityQueue PQNode PQNode.cost} {r : GameRoom} {src dest pos again : Vec2Int}
  {maxDepth : Int32} {st st' st₁ : SearchState} {cells : List Vec2Int} {found : Bool}

instance : Finite Vec2Int :=
  Finite.of_injective (fun c : Vec2Int => (c.x.toBitVec.toFin, c.y.toBitVec.toFin)) fun a b h => by
    obtain ⟨hx, hy⟩ := Prod.mk.inj h
    exact Vec2Int.ext (Int32.toBitVec_inj.1 (BitVec.toFin_inj.1 hx))
      (Int32.toBitVec_inj.1 (BitVec.toFin_inj.1 hy))

/-! ## Neighbours -/

theorem Steps.symm {a b : Vec2Int} (h : Steps r src maxDepth a b)
    (ha : inReach r src maxDepth a = true) : Steps r src maxDepth b a := by
  obtain ⟨⟨dir, hdir, rfl⟩, -⟩ := h
  have hneg : ∀ dir ∈ front, ∃ dir' ∈ front, ⟨0, 0⟩ = dir + dir' := by decide
  obtain ⟨dir', hdir', hsum⟩ := hneg dir hdir
  refine ⟨⟨dir', hdir', ?_⟩, ha⟩
  have hx : 0 = dir.x + dir'.x := congrArg Vec2Int.x hsum
  have hy : 0 = dir.y + dir'.y := congrArg Vec2Int.y hsum
  apply Vec2Int.ext
  · show a.x = a.x + dir.x + dir'.x
    rw [Int32.add_assoc, ← hx, Int32.add_zero]
  · show a.y = a.y + dir.y + dir'.y
    rw [Int32.add_assoc, ← hy, Int32.add_zero]

theorem not_steps_self (a : Vec2Int) : ¬ Steps r src maxDepth a a := by
  rintro ⟨⟨dir, hdir, heq⟩, -⟩
  exact front_ne hdir heq.symm

theorem nodup_neighbours (pos : Vec2Int) : (front.map (pos + ·)).Nodup := by
  refine List.Nodup.map (fun a b hab => ?_) (by decide)
  have hx : pos.x + a.x = pos.x + b.x := congrArg Vec2Int.x hab
  have hy : pos.y + a.y = pos.y + b.y := congrArg Vec2Int.y hab
  exact Vec2Int.ext (by simpa using hx) (by simpa using hy)

theorem mem_neighbours {c : Vec2Int} :
    c ∈ front.map (pos + ·) ↔ ∃ dir ∈ front, c = pos + dir := by
  simp [eq_comm]

/-! ## One neighbour -/

theorem costed_searchStart : (searchStart Q src dest).Costed dest where
  best_eq c hc := by
    simp only [searchStart, ExtTreeMap.mem_insert, ExtTreeMap.not_mem_empty, or_false] at hc
    obtain rfl := LawfulEqCmp.eq_of_compare hc
    simp [searchStart]
  cost_eq node hnode := by
    rw [searchStart, Q.mem_push] at hnode
    rcases hnode with rfl | hnode
    · rfl
    · cases hnode

/-- Where the costs are distances, a neighbour is entered if it is open. -/
theorem visit_of_open (hst : st.Costed dest) {dir : Vec2Int}
    (h : st.Open r src dest maxDepth (pos + dir)) :
    visit Q r src dest maxDepth pos st dir =
      { pq := Q.push ⟨dest.distance (pos + dir), pos + dir⟩ st.pq
        best := st.best.insert (pos + dir) (dest.distance (pos + dir))
        parent := st.parent.insert (pos + dir) pos } := by
  have hzero : st.best.getD (pos + dir) 0 = 0 := by
    by_cases hmem : pos + dir ∈ st.best
    · rw [hst.best_eq _ hmem]
      exact h.2.resolve_left fun hnot => hnot hmem
    · exact ExtTreeMap.getD_eq_fallback hmem
  rw [visit_eq, if_pos ⟨h.1, .inl hzero⟩]

theorem visit_of_not_open (hst : st.Costed dest) {dir : Vec2Int}
    (h : ¬ st.Open r src dest maxDepth (pos + dir)) :
    visit Q r src dest maxDepth pos st dir = st := by
  rw [visit_eq, if_neg]
  rintro ⟨hreach, hlow⟩
  have hmem : pos + dir ∈ st.best := by
    by_contra hnot
    exact h ⟨hreach, .inl hnot⟩
  rw [hst.best_eq _ hmem] at hlow
  exact hlow.elim (fun h0 => h ⟨hreach, .inr h0⟩) Int32.lt_irrefl

theorem visited_visit (Q : PriorityQueue PQNode PQNode.cost) (hst : st.Costed dest) (dir : Vec2Int) :
    Visited r src dest maxDepth pos [pos + dir] st (visit Q r src dest maxDepth pos st dir) := by
  by_cases h : st.Open r src dest maxDepth (pos + dir)
  · rw [visit_of_open hst h]
    have hiff : ∀ c, c ∈ [pos + dir] ∧ st.Open r src dest maxDepth c ↔ pos + dir = c := by
      intro c
      rw [List.mem_singleton]
      exact ⟨fun hc => hc.1.symm, fun hc => ⟨hc.symm, hc ▸ h⟩⟩
    refine ⟨⟨?_, ?_⟩, ?_, ?_, ?_, ?_⟩
    · intro c hc
      rw [ExtTreeMap.getD_insert]
      split
      · rename_i heq
        rw [LawfulEqCmp.eq_of_compare heq]
      · rename_i hne
        exact hst.best_eq c ((ExtTreeMap.mem_insert.1 hc).resolve_left hne)
    · intro node hnode
      rcases Q.mem_push.1 hnode with rfl | hnode
      · rfl
      · exact hst.cost_eq node hnode
    · intro c
      rw [ExtTreeMap.mem_insert, hiff, LawfulEqCmp.compare_eq_iff_eq, or_comm]
    · intro c
      rw [hiff, or_comm]
      constructor
      · rintro ⟨node, hnode, rfl⟩
        rcases Q.mem_push.1 hnode with rfl | hnode
        · exact .inl rfl
        · exact .inr ⟨node, hnode, rfl⟩
      · rintro (rfl | ⟨node, hnode, rfl⟩)
        · exact ⟨_, Q.mem_push.2 (.inl rfl), rfl⟩
        · exact ⟨node, Q.mem_push.2 (.inr hnode), rfl⟩
    · intro c hc hopen
      rw [link, ExtTreeMap.getD_insert, if_pos]
      exact LawfulEqCmp.compare_eq_iff_eq.2 ((hiff c).1 ⟨hc, hopen⟩)
    · intro c hc
      rw [link, ExtTreeMap.getD_insert, if_neg]
      · rfl
      · rwa [LawfulEqCmp.compare_eq_iff_eq, ← hiff]
  · rw [visit_of_not_open hst h]
    have hnot : ∀ c, ¬ (c ∈ [pos + dir] ∧ st.Open r src dest maxDepth c) := by
      rintro c ⟨hc, hopen⟩
      rw [List.mem_singleton.1 hc] at hopen
      exact h hopen
    exact ⟨hst, fun c => (or_iff_left (hnot c)).symm, fun c => (or_iff_left (hnot c)).symm,
      fun c hc hopen => absurd ⟨hc, hopen⟩ (hnot c), fun _ _ => rfl⟩

/-! ## All neighbours -/

/-- A cell that was not among those entered is open as before. -/
theorem SearchState.Visited.open_iff (h : Visited r src dest maxDepth pos cells st st')
    {c : Vec2Int} (hc : c ∉ cells) :
    st'.Open r src dest maxDepth c ↔ st.Open r src dest maxDepth c := by
  rw [Open, Open, h.mem_best c, or_iff_left (a := c ∈ st.best) fun hcell => hc hcell.1]

theorem SearchState.Visited.cons {c₀ : Vec2Int} (hc₀ : c₀ ∉ cells)
    (h₁ : Visited r src dest maxDepth pos [c₀] st st₁)
    (h₂ : Visited r src dest maxDepth pos cells st₁ st') :
    Visited r src dest maxDepth pos (c₀ :: cells) st st' := by
  have hsplit : ∀ c, c ∈ c₀ :: cells ∧ st.Open r src dest maxDepth c ↔
      (c ∈ [c₀] ∧ st.Open r src dest maxDepth c) ∨
        (c ∈ cells ∧ st₁.Open r src dest maxDepth c) := by
    intro c
    rw [List.mem_cons, List.mem_singleton, or_and_right]
    refine or_congr_right (and_congr_right fun hc => (h₁.open_iff ?_).symm)
    rw [List.mem_singleton]
    exact fun heq => hc₀ (heq ▸ hc)
  refine ⟨h₂.costed, ?_, ?_, ?_, ?_⟩
  · intro c
    rw [h₂.mem_best, h₁.mem_best, hsplit, or_assoc]
  · intro c
    rw [h₂.mem_pending, h₁.mem_pending, hsplit, or_assoc]
  · intro c hc hopen
    by_cases h : c ∈ cells ∧ st₁.Open r src dest maxDepth c
    · exact h₂.link_of_open c h.1 h.2
    · rw [h₂.link_of_not_open c h]
      have h' := ((hsplit c).1 ⟨hc, hopen⟩).resolve_right h
      exact h₁.link_of_open c h'.1 h'.2
  · intro c hc
    rw [hsplit, not_or] at hc
    rw [h₂.link_of_not_open c hc.2, h₁.link_of_not_open c hc.1]

theorem visited_foldl (Q : PriorityQueue PQNode PQNode.cost) (hst : st.Costed dest)
    {dirs : List Vec2Int}
    (hdirs : (dirs.map (pos + ·)).Nodup) :
    Visited r src dest maxDepth pos (dirs.map (pos + ·)) st
      (dirs.foldl (visit Q r src dest maxDepth pos) st) := by
  induction dirs generalizing st with
  | nil => exact ⟨hst, by simp, by simp, by simp, fun _ _ => rfl⟩
  | cons dir dirs ih =>
    rw [List.map_cons, List.nodup_cons] at hdirs
    have h₁ : Visited r src dest maxDepth pos [pos + dir] st
        (visit Q r src dest maxDepth pos st dir) := visited_visit Q hst dir
    exact h₁.cons hdirs.1 (ih h₁.costed hdirs.2)

/-! ## A pass -/

/-- What every pass keeps. -/
structure SearchState.Sound (r : GameRoom) (src dest : Vec2Int) (maxDepth : Int32)
    (st : SearchState) : Prop where
  costed : st.Costed dest
  explored : st.linked.Explored (Steps r src maxDepth) src

/-- Of the cells of cost 0 the search enters `again` and no other. -/
def OnlyZero (r : GameRoom) (src dest : Vec2Int) (maxDepth : Int32) (again : Vec2Int) : Prop :=
  ∀ a b, Reachable r src maxDepth a → Steps r src maxDepth a b →
    (dest.distance b = 0 ↔ b = again)

theorem mem_seen_searchStart {c : Vec2Int} :
    c ∈ (searchStart Q src dest).linked.seen ↔ c = src := by
  show c ∈ (∅ : ExtTreeMap Vec2Int Int32).insert src (dest.distance src) ↔ c = src
  rw [ExtTreeMap.mem_insert, LawfulEqCmp.compare_eq_iff_eq, eq_comm]
  exact or_iff_left ExtTreeMap.not_mem_empty

theorem link_searchStart : (searchStart Q src dest).linked.link src = src := by
  show (searchStart Q src dest).parent.getD src ⟨0, 0⟩ = src
  rw [searchStart, ExtTreeMap.getD_insert_self]

theorem sound_searchStart : (searchStart Q src dest).Sound r src dest maxDepth := by
  have hpending : ∀ c, c ∈ (searchStart Q src dest).linked.pending ↔ c = src := by
    intro c
    constructor
    · rintro ⟨node, hnode, rfl⟩
      rcases Q.mem_push.1 hnode with rfl | hnode
      · rfl
      · cases hnode
    · rintro rfl
      exact ⟨_, Q.mem_push.2 (.inl rfl), rfl⟩
  refine ⟨costed_searchStart, mem_seen_searchStart.2 rfl, ?_, ?_, ?_, ?_⟩
  · intro c hc
    exact mem_seen_searchStart.2 ((hpending c).1 hc)
  · intro c hc
    obtain rfl := mem_seen_searchStart.1 hc
    exact .refl
  · intro c hc
    exact .inl ((hpending c).2 (mem_seen_searchStart.1 hc))
  · intro c hc
    obtain rfl := mem_seen_searchStart.1 hc
    rwa [link_searchStart]

theorem treelike_searchStart :
    (searchStart Q src dest).linked.Treelike (Steps r src maxDepth) again src := by
  refine ⟨?_, ?_, ?_⟩
  · intro c hc
    rw [mem_seen_searchStart.1 hc]
    exact .refl
  · intro c hc hne
    rw [mem_seen_searchStart.1 hc] at hne ⊢
    rwa [link_searchStart]
  · intro c hc
    rw [mem_seen_searchStart.1 hc]
    exact .of_fixed link_searchStart

/-- Nothing is skipped: the cost of a node is the one stored for its cell. -/
theorem searchBody_of_pop (hst : st.Sound r src dest maxDepth) {node : PQNode} {pq : List PQNode}
    (hpop : Q.pop st.pq = some (node, pq)) :
    searchBody Q r src dest maxDepth st =
      if node.pos = dest then .inr (true, { st with pq := pq })
      else .inl (front.foldl (visit Q r src dest maxDepth node.pos) { st with pq := pq }) := by
  have hnode : node ∈ st.pq := (Q.mem_of_pop hpop).2 (.inl rfl)
  have hcost : st.best.getD node.pos 0 = node.cost := by
    rw [hst.costed.cost_eq node hnode]
    exact hst.costed.best_eq _ (hst.explored.pending_sub _ ⟨node, hnode, rfl⟩)
  simp only [searchBody, hpop, hcost, Int32.lt_irrefl, if_false]

theorem searchBody_eq_inl (hst : st.Sound r src dest maxDepth)
    (h : searchBody Q r src dest maxDepth st = .inl st') :
    ∃ node pq, Q.pop st.pq = some (node, pq) ∧ node.pos ≠ dest ∧
      st' = front.foldl (visit Q r src dest maxDepth node.pos) { st with pq := pq } := by
  cases hpop : Q.pop st.pq with
  | none =>
    simp only [searchBody, hpop] at h
    cases h
  | some top =>
    obtain ⟨node, pq⟩ := top
    rw [searchBody_of_pop hst hpop] at h
    split at h
    · cases h
    · rename_i hne
      exact ⟨node, pq, rfl, hne, (Sum.inl.inj h).symm⟩

/-- The search leaves with `dest` seen or with nothing pending. -/
theorem searchBody_eq_inr (hst : st.Sound r src dest maxDepth)
    (h : searchBody Q r src dest maxDepth st = .inr (found, st')) :
    st'.best = st.best ∧ st'.parent = st.parent ∧
      (found = true → dest ∈ st.best) ∧ (found = false → st' = st ∧ st.pq = []) := by
  cases hpop : Q.pop st.pq with
  | none =>
    simp only [searchBody, hpop] at h
    cases h
    exact ⟨rfl, rfl, fun hf => (Bool.false_ne_true hf).elim,
      fun _ => ⟨rfl, (Q.pop_eq_none _).1 hpop⟩⟩
  | some top =>
    obtain ⟨node, pq⟩ := top
    rw [searchBody_of_pop hst hpop] at h
    split at h
    · rename_i hdest
      cases h
      refine ⟨rfl, rfl, fun _ => ?_, fun hf => (Bool.false_ne_true hf.symm).elim⟩
      have hnode : node ∈ st.pq := (Q.mem_of_pop hpop).2 (.inl rfl)
      rw [← hdest]
      exact hst.explored.pending_sub _ ⟨node, hnode, rfl⟩
    · cases h

/-- What the search enters are the fresh cells. -/
theorem fresh_iff (hagain : OnlyZero r src dest maxDepth again) {a b : Vec2Int}
    (ha : Reachable r src maxDepth a) :
    st.linked.Fresh (Steps r src maxDepth) again a b ↔
      b ∈ front.map (a + ·) ∧ st.Open r src dest maxDepth b := by
  rw [mem_neighbours]
  constructor
  · rintro ⟨hstep, hor⟩
    exact ⟨hstep.1, hstep.2, hor.imp_right (hagain a b ha hstep).2⟩
  · rintro ⟨hdir, hreach, hor⟩
    exact ⟨⟨hdir, hreach⟩, hor.imp_right (hagain a b ha ⟨hdir, hreach⟩).1⟩

/-- **A pass of the search takes a pending cell of least cost**, which is not `dest`. -/
theorem expands_of_searchBody (hagain : OnlyZero r src dest maxDepth again)
    (hst : st.Sound r src dest maxDepth) (h : searchBody Q r src dest maxDepth st = .inl st') :
    ∃ pos, pos ≠ dest ∧ (∀ c ∈ st.linked.pending, dest.distance pos ≤ dest.distance c) ∧
      LinkedSearch.Expands (Steps r src maxDepth) again st.linked st'.linked pos ∧
      st'.Sound r src dest maxDepth := by
  obtain ⟨node, pq, hpop, hne, rfl⟩ := searchBody_eq_inl hst h
  have hmem : ∀ n, n ∈ st.pq ↔ n = node ∨ n ∈ pq := fun n => Q.mem_of_pop hpop
  have hnode : node.pos ∈ st.linked.pending := ⟨node, (hmem node).2 (.inl rfl), rfl⟩
  have hcosted : ({ st with pq := pq } : SearchState).Costed dest :=
    ⟨hst.costed.best_eq, fun n hn => hst.costed.cost_eq n ((hmem n).2 (.inr hn))⟩
  have hv : Visited r src dest maxDepth node.pos (front.map (node.pos + ·)) { st with pq := pq }
      (front.foldl (visit Q r src dest maxDepth node.pos) { st with pq := pq }) :=
    visited_foldl Q hcosted (nodup_neighbours node.pos)
  have hfresh : ∀ b, st.linked.Fresh (Steps r src maxDepth) again node.pos b ↔
      b ∈ front.map (node.pos + ·) ∧ st.Open r src dest maxDepth b := fun b =>
    fresh_iff hagain (hst.explored.reachable _ (hst.explored.pending_sub _ hnode))
  have hexp : LinkedSearch.Expands (Steps r src maxDepth) again st.linked
      (front.foldl (visit Q r src dest maxDepth node.pos) { st with pq := pq }).linked
      node.pos := by
    refine ⟨hnode, ?_, ?_, ?_, ?_, ?_, ?_⟩
    · intro b
      rw [hfresh]
      exact hv.mem_best b
    · intro b hb
      exact (hv.mem_pending b).2 (.inr ((hfresh b).1 hb))
    · rintro b ⟨n, hn, rfl⟩ hb
      rcases (hmem n).1 hn with rfl | hn
      · exact absurd rfl hb
      · exact (hv.mem_pending n.pos).2 (.inl ⟨n, hn, rfl⟩)
    · intro b hb
      rcases (hv.mem_pending b).1 hb with ⟨n, hn, rfl⟩ | hb
      · exact .inl ⟨n, (hmem n).2 (.inr hn), rfl⟩
      · exact .inr ((hfresh b).2 hb)
    · intro b hb
      obtain ⟨hb₁, hb₂⟩ := (hfresh b).1 hb
      exact hv.link_of_open b hb₁ hb₂
    · intro b hb
      rw [hfresh] at hb
      exact hv.link_of_not_open b hb
  refine ⟨node.pos, hne, ?_, hexp, hv.costed, hst.explored.expands hexp⟩
  rintro c ⟨n, hn, rfl⟩
  rw [← hst.costed.cost_eq n hn, ← hst.costed.cost_eq node ((hmem node).2 (.inl rfl))]
  rcases (hmem n).1 hn with rfl | hn
  · exact Int32.le_refl _
  · exact Q.cost_le hpop n hn

/-! ## The search ends -/

/-- What a node of the queue counts for. A pass puts at most four nodes of `again` there. -/
def weight (again : Vec2Int) (node : PQNode) : ℕ := if node.pos = again then 1 else 5

/-- The cells that can still be entered for the first time, and the queue. -/
noncomputable def remaining (again : Vec2Int) (st : SearchState) : ℕ :=
  5 * {c | c ∉ st.best ∧ c ≠ again}.ncard + (st.pq.map (weight again)).sum

theorem sum_weight_push {node : PQNode} {pq : List PQNode} :
    ((Q.push node pq).map (weight again)).sum =
      weight again node + (pq.map (weight again)).sum := by
  rw [((Q.push_perm node pq).map (weight again)).sum_eq, List.map_cons, List.sum_cons]

theorem remaining_visit (Q : PriorityQueue PQNode PQNode.cost) (hst : st.Costed dest) {dir : Vec2Int}
    (hzero : inReach r src maxDepth (pos + dir) = true → dest.distance (pos + dir) = 0 →
      pos + dir = again) :
    remaining again (visit Q r src dest maxDepth pos st dir) ≤
      remaining again st + if pos + dir = again then 1 else 0 := by
  by_cases h : st.Open r src dest maxDepth (pos + dir)
  · rw [visit_of_open hst h, remaining, remaining, sum_weight_push, weight]
    simp only [ExtTreeMap.mem_insert, LawfulEqCmp.compare_eq_iff_eq, not_or]
    split
    · rename_i heq
      have hle : {c | (¬ pos + dir = c ∧ c ∉ st.best) ∧ c ≠ again}.ncard ≤
          {c | c ∉ st.best ∧ c ≠ again}.ncard :=
        Set.ncard_le_ncard (fun c hc => ⟨hc.1.2, hc.2⟩) (Set.toFinite _)
      omega
    · rename_i hne
      -- a cell other than `again` is open because it has not been seen
      have hnot : pos + dir ∉ st.best := h.2.resolve_right fun h0 => hne (hzero h.1 h0)
      have hlt : {c | (¬ pos + dir = c ∧ c ∉ st.best) ∧ c ≠ again}.ncard <
          {c | c ∉ st.best ∧ c ≠ again}.ncard := by
        refine Set.ncard_lt_ncard ⟨fun c hc => ⟨hc.1.2, hc.2⟩, fun hsub => ?_⟩ (Set.toFinite _)
        exact (hsub ⟨hnot, hne⟩).1.1 rfl
      omega
  · rw [visit_of_not_open hst h]
    omega

theorem remaining_foldl (Q : PriorityQueue PQNode PQNode.cost) (hst : st.Costed dest)
    {dirs : List Vec2Int}
    (hzero : ∀ dir ∈ dirs, inReach r src maxDepth (pos + dir) = true →
      dest.distance (pos + dir) = 0 → pos + dir = again) :
    remaining again (dirs.foldl (visit Q r src dest maxDepth pos) st) ≤
      remaining again st + (dirs.map fun dir => if pos + dir = again then 1 else 0).sum := by
  induction dirs generalizing st with
  | nil => exact Nat.le_refl _
  | cons dir dirs ih =>
    have hvisit := remaining_visit Q hst (hzero dir List.mem_cons_self)
    have hcosted : (visit Q r src dest maxDepth pos st dir).Costed dest :=
      (visited_visit Q hst dir).costed
    have hrest := ih hcosted fun d hd => hzero d (List.mem_cons_of_mem _ hd)
    rw [List.foldl_cons, List.map_cons, List.sum_cons]
    omega

theorem sum_again_lt (again pos : Vec2Int) :
    (front.map fun dir => if pos + dir = again then 1 else 0).sum <
      if pos = again then 1 else 5 := by
  split
  · rename_i heq
    have hnone : ∀ dir ∈ front, (if pos + dir = again then 1 else 0) = 0 := fun dir hdir =>
      if_neg (heq ▸ front_ne hdir)
    rw [List.map_congr_left hnone]
    decide
  · have hle : ∀ n ∈ front.map fun dir => if pos + dir = again then 1 else 0, n ≤ 1 := by
      intro n hn
      obtain ⟨dir, -, rfl⟩ := List.mem_map.1 hn
      split <;> decide
    have hsum := List.sum_le_card_nsmul _ 1 hle
    simp only [List.length_map, smul_eq_mul] at hsum
    exact hsum.trans_lt (by decide)

/-- A pass leaves less to be done. -/
theorem remaining_lt (hagain : OnlyZero r src dest maxDepth again)
    (hst : st.Sound r src dest maxDepth) (h : searchBody Q r src dest maxDepth st = .inl st') :
    remaining again st' < remaining again st := by
  obtain ⟨node, pq, hpop, -, rfl⟩ := searchBody_eq_inl hst h
  have hnode : node ∈ st.pq := (Q.mem_of_pop hpop).2 (.inl rfl)
  have hreach := hst.explored.reachable _ (hst.explored.pending_sub _ ⟨node, hnode, rfl⟩)
  have hcosted : ({ st with pq := pq } : SearchState).Costed dest :=
    ⟨hst.costed.best_eq, fun n hn => hst.costed.cost_eq n ((Q.mem_of_pop hpop).2 (.inr hn))⟩
  have hzero : ∀ dir ∈ front, inReach r src maxDepth (node.pos + dir) = true →
      dest.distance (node.pos + dir) = 0 → node.pos + dir = again := fun dir hdir hin =>
    (hagain node.pos _ hreach ⟨⟨dir, hdir, rfl⟩, hin⟩).1
  have hle := remaining_foldl Q hcosted hzero
  have hsum := sum_again_lt again node.pos
  have hpq : (st.pq.map (weight again)).sum =
      (if node.pos = again then 1 else 5) + (pq.map (weight again)).sum := by
    rw [((Q.pop_perm hpop).map (weight again)).sum_eq, List.map_cons, List.sum_cons, weight]
  have hrest : remaining again { st with pq := pq } =
      5 * {c | c ∉ st.best ∧ c ≠ again}.ncard + (pq.map (weight again)).sum := rfl
  have hall : remaining again st =
      5 * {c | c ∉ st.best ∧ c ≠ again}.ncard + (st.pq.map (weight again)).sum := rfl
  omega

/-- **The search ends**, whichever pending cell of least cost it takes, if it enters only one cell
of cost 0. -/
theorem search_terminates (Q : PriorityQueue PQNode PQNode.cost)
    (hagain : OnlyZero r src dest maxDepth again) :
    Loop.Terminates (searchBody Q r src dest maxDepth) (searchStart Q src dest) := by
  refine Loop.terminates_of_measure (P := SearchState.Sound r src dest maxDepth) (remaining again)
    ?_ sound_searchStart
  intro st st' hst h
  obtain ⟨pos, -, -, -, hst'⟩ := expands_of_searchBody hagain hst h
  exact ⟨hst', remaining_lt hagain hst h⟩

end

end Zelda.Server
