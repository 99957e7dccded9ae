import Mathlib.Tactic
import Std.Data.ExtTreeMap
import Zelda.Foundations.Loop
import Zelda.Foundations.PriorityQueue
import Zelda.Foundations.Trails

/-!
# Greedy best-first search with a substitute

A search that keeps its pending nodes in a priority queue ordered by an estimate of how far they
are from the destination, stores for each node it has seen its cost and the node it came from, and,
when it has run out of nodes without finding the destination, settles for the best node it has seen.
An entry of the map of costs that is not there reads as 0, so 0 also means that a node was not seen.

Main results: `exists_run` and `spec`. Where only the destination costs 0 and finitely many nodes
can be reached, the search ends, and what it returns is a way to the destination if that can be
reached, and else to a node that none is better than.
-/

set_option linter.unusedSectionVars false

namespace Zelda

open Std (ExtTreeMap TransOrd LawfulEqOrd LawfulEqCmp)

/-- What is searched. `N` is the type of the nodes of the queue, a cost with a position. -/
structure BestFirst (α K N : Type*) where
  src : α
  dest : α
  /-- What is tried from a position, in this order. -/
  neighbours : α → List α
  /-- The position may be entered. -/
  enters : α → Bool
  /-- The estimate of how far it is to `dest`. -/
  cost : α → K
  /-- How far it is from `src`, which decides between substitutes of equal cost. -/
  detour : α → K
  /-- A cost as it is compared when the substitute is looked for. -/
  score : K → ℤ
  /-- The score to begin with. -/
  top : ℤ
  node : K → α → N
  nodeCost : N → K
  nodePos : N → α
  nodeCost_node : ∀ k a, nodeCost (node k a) = k
  nodePos_node : ∀ k a, nodePos (node k a) = a

namespace BestFirst

/-- The containers of the search. -/
structure Containers (α K N : Type*) [Ord α] where
  pq : List N
  best : ExtTreeMap α K
  parent : ExtTreeMap α α

variable {α K N : Type*} [Ord α] [TransOrd α] [LawfulEqOrd α] [DecidableEq α] [Inhabited α]
  [LinearOrder K] [Zero K]

section

variable (B : BestFirst α K N) (Q : PriorityQueue N B.nodeCost)

/-- The containers before the search: `src` is its own parent. -/
def start : Containers α K N where
  pq := Q.push (B.node (B.cost B.src) B.src) []
  best := (∅ : ExtTreeMap α K).insert B.src (B.cost B.src)
  parent := (∅ : ExtTreeMap α α).insert B.src B.src

/-- `nextPos` is entered from `pos`. -/
def enter (pos : α) (st : Containers α K N) (nextPos : α) : Containers α K N where
  pq := Q.push (B.node (B.cost nextPos) nextPos) st.pq
  best := st.best.insert nextPos (B.cost nextPos)
  parent := st.parent.insert nextPos pos

/-- `nextPos` is tried from `pos`. -/
def visit (pos : α) (st : Containers α K N) (nextPos : α) : Containers α K N :=
  if B.enters nextPos = false then st
  else
    let bestValue := st.best.getD nextPos 0
    if bestValue ≠ 0 ∧ bestValue ≤ B.cost nextPos then st
    else B.enter Q pos st nextPos

/-- A pass of the search; it leaves with whether `dest` was found. -/
def searchBody (st : Containers α K N) : Containers α K N ⊕ (Bool × Containers α K N) :=
  match Q.pop st.pq with
  | none => .inr (false, st)
  | some (node, pq) =>
    let st := { st with pq := pq }
    if st.best.getD (B.nodePos node) 0 < B.nodeCost node then .inl st
    else if B.nodePos node = B.dest then .inr (true, st)
    else .inl ((B.neighbours (B.nodePos node)).foldl (B.visit Q (B.nodePos node)) st)

/-- One entry of the loop that looks for a substitute: the position so far and its score. -/
def closest (best : α × ℤ) (item : α × K) : α × ℤ :=
  if best.2 = B.score item.2 then
    if B.detour item.1 < B.detour best.1 then (item.1, best.2) else best
  else if B.score item.2 < best.2 then (item.1, B.score item.2)
  else best

/-- Where the way leads. -/
def destination (found : Bool) (st : Containers α K N) : α :=
  if found then B.dest else (st.best.toList.foldl B.closest (B.dest, B.top)).1

/-- A pass of the walk along the parents. -/
def walkBody (parent : ExtTreeMap α α) :
    List α × α → (List α × α) ⊕ List α := fun (path, pos) =>
  let path := path ++ [pos]
  if pos = parent.getD pos default then .inr path else .inl (path, parent.getD pos default)

/-- The search and the walk with at most `fuel` passes each: `none` when one of them is still going
on, and else the way. -/
def run (fuel : ℕ) : Option (List α) :=
  (Loop.run (B.searchBody Q) fuel (B.start Q)).bind fun (found, st) =>
    (Loop.run (walkBody st.parent) fuel ([], B.destination found st)).map List.reverse

/-- From `a` the search goes on to `b`. -/
def Steps (a b : α) : Prop := b ∈ B.neighbours a ∧ B.enters b = true

/-- What the search can come to. -/
abbrev Reachable : α → Prop := LinkedSearch.Reachable B.Steps B.src

/-- As the end of the way `a` is better than `b`, or as good and not behind it in the map of
costs. -/
def Precedes (a b : α) : Prop :=
  B.score (B.cost a) < B.score (B.cost b) ∨ B.score (B.cost a) = B.score (B.cost b) ∧
    (B.detour a < B.detour b ∨ B.detour a = B.detour b ∧ (compare a b).isLE)

/-- What the search relies on. -/
structure Lawful : Prop where
  nodup_neighbours : ∀ a, (B.neighbours a).Nodup
  not_mem_neighbours : ∀ a, a ∉ B.neighbours a
  finite : {c | B.Reachable c}.Finite
  cost_eq_zero : ∀ a b, B.Reachable a → B.Steps a b → (B.cost b = 0 ↔ b = B.dest)
  dest_least : B.Reachable B.dest → ∀ c, B.Reachable c → B.cost c ≤ B.cost B.dest → c = B.dest
  score_lt_top : ∀ c, B.Reachable c → B.score (B.cost c) < B.top

end

/-- The positions of the queue, the positions with a cost, and the parents. -/
def Containers.linked (B : BestFirst α K N) (st : Containers α K N) : LinkedSearch α where
  pending := {c | ∃ node ∈ st.pq, B.nodePos node = c}
  seen := {c | c ∈ st.best}
  link c := st.parent.getD c default

variable {B : BestFirst α K N} {Q : PriorityQueue N B.nodeCost} {pos a b c : α}
  {st st' : Containers α K N} {cells : List α} {found : Bool}

/-! ## Entering positions -/

/-- `c` is entered when it is tried. -/
def Open (B : BestFirst α K N) (st : Containers α K N) (c : α) : Prop :=
  B.enters c = true ∧ (c ∉ st.best ∨ B.cost c = 0)

instance (st : Containers α K N) : DecidablePred (B.Open st) := fun _ =>
  inferInstanceAs (Decidable (_ ∧ _))

/-- What is stored are the costs. -/
structure Costed (B : BestFirst α K N) (st : Containers α K N) : Prop where
  best_eq : ∀ c ∈ st.best, st.best.getD c 0 = B.cost c
  cost_eq : ∀ node ∈ st.pq, B.nodeCost node = B.cost (B.nodePos node)

theorem Costed.enter (h : B.Costed st) : B.Costed (B.enter Q pos st c) where
  best_eq a ha := by
    rw [BestFirst.enter, ExtTreeMap.getD_insert]
    split
    · rename_i heq
      rw [LawfulEqCmp.eq_of_compare heq]
    · rename_i hne
      exact h.best_eq a ((ExtTreeMap.mem_insert.1 ha).resolve_left hne)
  cost_eq node hnode := by
    rcases Q.mem_push.1 hnode with rfl | hnode
    · rw [B.nodeCost_node, B.nodePos_node]
    · exact h.cost_eq node hnode

theorem mem_best_enter : a ∈ (B.enter Q pos st c).best ↔ a = c ∨ a ∈ st.best := by
  rw [enter, ExtTreeMap.mem_insert, LawfulEqCmp.compare_eq_iff_eq, eq_comm]

theorem link_enter (b : α) : ((B.enter Q pos st c).linked B).link b =
    if b = c then pos else (st.linked B).link b := by
  simp only [Containers.linked, enter, ExtTreeMap.getD_insert, LawfulEqCmp.compare_eq_iff_eq,
    eq_comm (a := c)]

/-- Where the stored costs are right, a position is entered if it is open. -/
theorem visit_eq (h : B.Costed st) :
    B.visit Q pos st c = if B.Open st c then B.enter Q pos st c else st := by
  simp only [visit, Open]
  by_cases henters : B.enters c = true
  · by_cases hmem : c ∈ st.best
    · by_cases hzero : B.cost c = 0
      · simp [henters, h.best_eq c hmem, hzero]
      · simp [henters, h.best_eq c hmem, hzero, hmem]
    · simp [henters, hmem, ExtTreeMap.getD_eq_fallback hmem]
  · simp [henters]

/-- Where the stored costs are right, the open ones among different positions are entered. -/
theorem foldl_visit_eq (h : B.Costed st) (hcells : cells.Nodup) :
    cells.foldl (B.visit Q pos) st = (cells.filter (B.Open st)).foldl (B.enter Q pos) st := by
  induction cells generalizing st with
  | nil => rfl
  | cons c cells ih =>
    obtain ⟨hc, hcells⟩ := List.nodup_cons.1 hcells
    rw [List.foldl_cons, visit_eq h]
    by_cases hopen : B.Open st c
    · rw [if_pos hopen, ih h.enter hcells, List.filter_cons, if_pos (decide_eq_true hopen),
        List.foldl_cons]
      congr 1
      -- entering `c` changes nothing for the others
      refine List.filter_congr fun b hb => decide_eq_decide.2 ?_
      rw [Open, Open, mem_best_enter, not_or]
      have hne : b ≠ c := fun heq => hc (heq ▸ hb)
      exact and_congr_right fun _ => or_congr_left (and_iff_right hne)
    · rw [if_neg hopen, ih h hcells, List.filter_cons, if_neg (by simpa using hopen)]

theorem mem_pending : c ∈ (st.linked B).pending ↔ c ∈ st.pq.map B.nodePos := List.mem_map.symm

/-- What is different when the positions `cells` have been entered from `pos`. -/
structure Entered (B : BestFirst α K N) (pos : α) (cells : List α) (st st' : Containers α K N) :
    Prop where
  costed : B.Costed st'
  pq_perm : (st'.pq.map B.nodePos).Perm (cells ++ st.pq.map B.nodePos)
  mem_best : ∀ c, c ∈ st'.best ↔ c ∈ st.best ∨ c ∈ cells
  link_of_mem : ∀ c ∈ cells, (st'.linked B).link c = pos
  link_of_not_mem : ∀ c ∉ cells, (st'.linked B).link c = (st.linked B).link c

theorem Entered.mem_pending (h : B.Entered pos cells st st') (c : α) :
    c ∈ (st'.linked B).pending ↔ c ∈ (st.linked B).pending ∨ c ∈ cells := by
  rw [BestFirst.mem_pending, h.pq_perm.mem_iff, List.mem_append, ← BestFirst.mem_pending, or_comm]

theorem entered_foldl (h : B.Costed st) :
    B.Entered pos cells st (cells.foldl (B.enter Q pos) st) := by
  induction cells generalizing st with
  | nil => exact ⟨h, .refl _, by simp, by simp, fun _ _ => rfl⟩
  | cons c cells ih =>
    have hc : B.Costed (B.enter Q pos st c) := h.enter
    obtain ⟨hcosted, hperm, hbest, hmem, hnot⟩ := ih hc
    have hlink : ∀ b, ((B.enter Q pos st c).linked B).link b =
        if b = c then pos else (st.linked B).link b := link_enter
    refine ⟨hcosted, ?_, ?_, ?_, ?_⟩
    · have hpush : ((B.enter Q pos st c).pq.map B.nodePos).Perm (c :: st.pq.map B.nodePos) := by
        have hperm := (Q.push_perm (B.node (B.cost c) c) st.pq).map B.nodePos
        rwa [List.map_cons, B.nodePos_node] at hperm
      exact hperm.trans ((hpush.append_left cells).trans List.perm_middle)
    · intro b
      rw [List.foldl_cons, hbest, mem_best_enter, List.mem_cons]
      tauto
    · intro b hb
      rw [List.foldl_cons]
      by_cases hb' : b ∈ cells
      · exact hmem b hb'
      · rw [hnot b hb', hlink, if_pos ((List.mem_cons.1 hb).resolve_right hb')]
    · intro b hb
      rw [List.mem_cons, not_or] at hb
      rw [List.foldl_cons, hnot b hb.2, hlink, if_neg hb.1]

/-! ## A pass -/

/-- What every pass keeps. -/
structure Sound (B : BestFirst α K N) (st : Containers α K N) : Prop where
  costed : B.Costed st
  explored : (st.linked B).Explored B.Steps B.src
  linked : (st.linked B).Linked B.Steps B.src
  treelike : (st.linked B).Treelike B.Steps B.dest B.src
  dest_pending : B.dest ∈ st.best → B.dest ∈ (st.linked B).pending
  nodup_pq : (st.pq.map B.nodePos).Nodup

theorem mem_best_start : c ∈ (B.start Q).best ↔ c = B.src := by
  rw [start, ExtTreeMap.mem_insert, LawfulEqCmp.compare_eq_iff_eq, eq_comm]
  exact or_iff_left ExtTreeMap.not_mem_empty

theorem link_start : ((B.start Q).linked B).link B.src = B.src := by
  show ((∅ : ExtTreeMap α α).insert B.src B.src).getD B.src default = B.src
  rw [ExtTreeMap.getD_insert_self]

theorem sound_start : B.Sound (B.start Q) := by
  have hpending : ∀ c, c ∈ ((B.start Q).linked B).pending ↔ c = B.src := by
    intro c
    constructor
    · rintro ⟨node, hnode, rfl⟩
      rcases Q.mem_push.1 hnode with rfl | hnode
      · exact B.nodePos_node _ _
      · cases hnode
    · rintro rfl
      exact ⟨_, Q.mem_push.2 (.inl rfl), B.nodePos_node _ _⟩
  refine ⟨⟨?_, ?_⟩, ⟨?_, ?_, ?_, ?_, ?_⟩, ?_, ⟨?_, ?_, ?_⟩, ?_, ?_⟩
  · intro c hc
    rw [mem_best_start.1 hc]
    exact ExtTreeMap.getD_insert_self
  · intro node hnode
    rcases Q.mem_push.1 hnode with rfl | hnode
    · rw [B.nodeCost_node, B.nodePos_node]
    · cases hnode
  · exact mem_best_start.2 rfl
  · exact fun c hc => mem_best_start.2 ((hpending c).1 hc)
  · intro c hc
    rw [mem_best_start.1 hc]
    exact .refl
  · exact fun c hc => .inl ((hpending c).2 (mem_best_start.1 hc))
  · intro c hc
    rw [mem_best_start.1 hc, link_start]
    exact mem_best_start.2 rfl
  · intro c hc
    rw [mem_best_start.1 hc]
    exact .inl ⟨rfl, link_start⟩
  · intro c hc
    rw [mem_best_start.1 hc]
    exact .refl
  · intro c hc hne
    rw [mem_best_start.1 hc] at hne ⊢
    rwa [link_start]
  · intro c hc
    rw [mem_best_start.1 hc]
    exact .of_fixed link_start
  · exact fun hc => (hpending _).2 (mem_best_start.1 hc)
  · have hlen := ((Q.push_perm (B.node (B.cost B.src) B.src) []).map B.nodePos).nodup_iff
    exact hlen.2 (List.nodup_singleton _)

theorem Sound.pending_reachable (h : B.Sound st) (hc : c ∈ (st.linked B).pending) :
    B.Reachable c :=
  h.explored.reachable c (h.explored.pending_sub c hc)

/-- The positions entered from `pos`. -/
def opened (B : BestFirst α K N) (st : Containers α K N) (pos : α) : List α :=
  (B.neighbours pos).filter (B.Open st)

/-- Nothing is skipped: the cost of a node is the one stored for its position. -/
theorem searchBody_of_pop (hB : B.Lawful) (h : B.Sound st) {node : N} {pq : List N}
    (hpop : Q.pop st.pq = some (node, pq)) :
    B.searchBody Q st =
      if B.nodePos node = B.dest then .inr (true, { st with pq := pq })
      else .inl ((B.opened st (B.nodePos node)).foldl (B.enter Q (B.nodePos node))
        { st with pq := pq }) := by
  have hnode : node ∈ st.pq := (Q.mem_of_pop hpop).2 (.inl rfl)
  have hcost : st.best.getD (B.nodePos node) 0 = B.nodeCost node := by
    rw [h.costed.cost_eq node hnode]
    exact h.costed.best_eq _ (h.explored.pending_sub _ ⟨node, hnode, rfl⟩)
  have hcosted : B.Costed { st with pq := pq } :=
    ⟨h.costed.best_eq, fun n hn => h.costed.cost_eq n ((Q.mem_of_pop hpop).2 (.inr hn))⟩
  simp only [searchBody, hpop, hcost, lt_irrefl, if_false]
  rw [foldl_visit_eq hcosted (hB.nodup_neighbours _)]
  rfl

/-- The search leaves with `dest` seen or with nothing pending. -/
theorem searchBody_eq_inr (hB : B.Lawful) (h : B.Sound st)
    (hb : B.searchBody Q st = .inr (found, st')) :
    st'.best = st.best ∧ st'.parent = st.parent ∧
      (found = true → B.dest ∈ st.best) ∧ (found = false → st.pq = []) := by
  cases hpop : Q.pop st.pq with
  | none =>
    simp only [searchBody, hpop] at hb
    cases hb
    exact ⟨rfl, rfl, fun hf => (Bool.false_ne_true hf).elim, fun _ => (Q.pop_eq_none _).1 hpop⟩
  | some top =>
    obtain ⟨node, pq⟩ := top
    rw [searchBody_of_pop hB h hpop] at hb
    split at hb
    · rename_i hdest
      cases hb
      refine ⟨rfl, rfl, fun _ => ?_, fun hf => (Bool.false_ne_true hf.symm).elim⟩
      rw [← hdest]
      exact h.explored.pending_sub _ ⟨node, (Q.mem_of_pop hpop).2 (.inl rfl), rfl⟩
    · cases hb

/-- What can still be entered, and the queue. -/
noncomputable def remaining (B : BestFirst α K N) (st : Containers α K N) : ℕ :=
  {c | B.Reachable c ∧ c ∉ st.best}.ncard + st.pq.length

/-- What is entered is not there any more to be entered. -/
theorem Entered.ncard (h : B.Entered pos cells st st') (hB : B.Lawful) (hcells : cells.Nodup)
    (hnew : ∀ c ∈ cells, B.Reachable c ∧ c ∉ st.best) :
    {c | B.Reachable c ∧ c ∉ st'.best}.ncard + cells.length =
      {c | B.Reachable c ∧ c ∉ st.best}.ncard := by
  have hsub : (cells.toFinset : Set α) ⊆ {c | B.Reachable c ∧ c ∉ st.best} := fun c hc =>
    hnew c (List.mem_toFinset.1 (Finset.mem_coe.1 hc))
  have hdiff : {c | B.Reachable c ∧ c ∉ st'.best} =
      {c | B.Reachable c ∧ c ∉ st.best} \ (cells.toFinset : Set α) := by
    ext c
    simp only [Set.mem_ofPred_eq, Set.mem_sdiff, h.mem_best, Finset.mem_coe, List.mem_toFinset,
      not_or, and_assoc]
  rw [hdiff, ← List.toFinset_card_of_nodup hcells, ← Set.ncard_coe_finset]
  exact Set.ncard_sdiff_add_ncard_of_subset hsub (hB.finite.subset fun c hc => hc.1)

/-- The fresh positions are those that are entered. -/
theorem fresh_iff (hB : B.Lawful) (ha : B.Reachable a) :
    (st.linked B).Fresh B.Steps B.dest a b ↔ b ∈ B.opened st a := by
  rw [opened, List.mem_filter, decide_eq_true_eq]
  constructor
  · rintro ⟨hstep, hor⟩
    exact ⟨hstep.1, hstep.2, hor.imp_right (hB.cost_eq_zero a b ha hstep).2⟩
  · rintro ⟨hmem, henters, hor⟩
    exact ⟨⟨hmem, henters⟩, hor.imp_right (hB.cost_eq_zero a b ha ⟨hmem, henters⟩).1⟩

/-- While `dest` is pending it is taken first. -/
theorem Sound.dest_not_mem (hB : B.Lawful) (h : B.Sound st) (ha : a ∈ (st.linked B).pending)
    (hne : a ≠ B.dest) (hleast : ∀ c ∈ (st.linked B).pending, B.cost a ≤ B.cost c) :
    B.dest ∉ st.best := by
  intro hdest
  have hpending := h.dest_pending hdest
  exact hne (hB.dest_least (h.pending_reachable hpending) a (h.pending_reachable ha)
    (hleast _ hpending))

theorem Entered.expands (hB : B.Lawful) (h : B.Sound st) {node : N} {pq : List N}
    (hpop : Q.pop st.pq = some (node, pq))
    (he : B.Entered (B.nodePos node) (B.opened st (B.nodePos node)) { st with pq := pq } st') :
    LinkedSearch.Expands B.Steps B.dest (st.linked B) (st'.linked B) (B.nodePos node) := by
  have hmem : ∀ n, n ∈ st.pq ↔ n = node ∨ n ∈ pq := fun n => Q.mem_of_pop hpop
  have hnode : B.nodePos node ∈ (st.linked B).pending := ⟨node, (hmem node).2 (.inl rfl), rfl⟩
  have hfresh : ∀ b, (st.linked B).Fresh B.Steps B.dest (B.nodePos node) b ↔
      b ∈ B.opened st (B.nodePos node) := fun b => fresh_iff hB (h.pending_reachable hnode)
  refine ⟨hnode, ?_, ?_, ?_, ?_, ?_, ?_⟩
  · intro b
    rw [hfresh]
    exact he.mem_best b
  · intro b hb
    exact (he.mem_pending b).2 (.inr ((hfresh b).1 hb))
  · rintro b ⟨n, hn, rfl⟩ hb
    rcases (hmem n).1 hn with rfl | hn
    · exact absurd rfl hb
    · exact (he.mem_pending _).2 (.inl ⟨n, hn, rfl⟩)
  · intro b hb
    rcases (he.mem_pending b).1 hb with ⟨n, hn, rfl⟩ | hb
    · exact .inl ⟨n, (hmem n).2 (.inr hn), rfl⟩
    · exact .inr ((hfresh b).2 hb)
  · intro b hb
    exact he.link_of_mem b ((hfresh b).1 hb)
  · intro b hb
    rw [hfresh] at hb
    exact he.link_of_not_mem b hb

/-- The pass from `st` to `st'` takes `a`. -/
def Takes (B : BestFirst α K N) (Q : PriorityQueue N B.nodeCost) (st st' : Containers α K N)
    (a : α) : Prop :=
  B.searchBody Q st = .inl st' ∧ ∃ node pq, Q.pop st.pq = some (node, pq) ∧ B.nodePos node = a

/-- **A pass takes a pending node of least cost**, as long as `dest` has not been seen, and leaves
less to be done. -/
theorem expands_of_searchBody (hB : B.Lawful) (h : B.Sound st)
    (hb : B.searchBody Q st = .inl st') :
    ∃ pos, B.Takes Q st st' pos ∧ B.dest ∉ st.best ∧
      (∀ c ∈ (st.linked B).pending, B.cost pos ≤ B.cost c) ∧
      LinkedSearch.Expands B.Steps B.dest (st.linked B) (st'.linked B) pos ∧
      pos ∉ (st'.linked B).pending ∧ B.Sound st' ∧ B.remaining st' < B.remaining st := by
  have htakes := hb
  cases hpop : Q.pop st.pq with
  | none =>
    simp only [searchBody, hpop] at hb
    cases hb
  | some top =>
    obtain ⟨node, pq⟩ := top
    rw [searchBody_of_pop hB h hpop] at hb
    split at hb
    · cases hb
    · rename_i hne
      obtain rfl := Sum.inl.inj hb
      have hmem : ∀ n, n ∈ st.pq ↔ n = node ∨ n ∈ pq := fun n => Q.mem_of_pop hpop
      have hnode : B.nodePos node ∈ (st.linked B).pending :=
        ⟨node, (hmem node).2 (.inl rfl), rfl⟩
      have hreach := h.pending_reachable hnode
      have hleast : ∀ c ∈ (st.linked B).pending, B.cost (B.nodePos node) ≤ B.cost c := by
        rintro c ⟨n, hn, rfl⟩
        rw [← h.costed.cost_eq n hn, ← h.costed.cost_eq node ((hmem node).2 (.inl rfl))]
        rcases (hmem n).1 hn with rfl | hn
        · exact le_rfl
        · exact Q.cost_le hpop n hn
      have hdest := h.dest_not_mem hB hnode hne hleast
      have he : B.Entered (B.nodePos node) (B.opened st (B.nodePos node)) { st with pq := pq }
          ((B.opened st (B.nodePos node)).foldl (B.enter Q (B.nodePos node))
            { st with pq := pq }) :=
        entered_foldl ⟨h.costed.best_eq, fun n hn => h.costed.cost_eq n ((hmem n).2 (.inr hn))⟩
      have hexp := he.expands hB h hpop
      have hnew : ∀ c ∈ B.opened st (B.nodePos node), B.Reachable c ∧ c ∉ st.best := by
        intro c hc
        obtain ⟨hstep, hor⟩ := (fresh_iff hB hreach).2 hc
        refine ⟨hreach.tail hstep, hor.elim id fun heq => ?_⟩
        rwa [heq]
      have hopened : (B.opened st (B.nodePos node)).Nodup := (hB.nodup_neighbours _).filter _
      -- the position taken is not in the queue any more, and nothing is entered twice
      have hpq := (Q.pop_perm hpop).map B.nodePos
      have hnodup := hpq.nodup_iff.1 h.nodup_pq
      rw [List.map_cons, List.nodup_cons] at hnodup
      have hgone : ∀ c ∈ B.opened st (B.nodePos node), c ∉ pq.map B.nodePos := by
        intro c hc hmem'
        refine (hnew c hc).2 (h.explored.pending_sub c (mem_pending.2 ?_))
        exact hpq.mem_iff.2 (List.mem_cons_of_mem _ hmem')
      refine ⟨_, ⟨htakes, node, pq, hpop, rfl⟩, hdest, hleast, hexp, ?_, ?_, ?_⟩
      · rw [he.mem_pending, not_or]
        refine ⟨fun hp => hnodup.1 (mem_pending.1 hp), fun hp => (hnew _ hp).2 ?_⟩
        exact h.explored.pending_sub _ hnode
      · refine ⟨he.costed, h.explored.expands hexp, h.linked.expands hexp,
          h.treelike.expands h.explored hexp hne, fun hd => ?_, ?_⟩
        · have hd := ((he.mem_best _).1 hd).resolve_left hdest
          exact (he.mem_pending _).2 (.inr hd)
        · refine he.pq_perm.nodup_iff.2 (List.nodup_append.2 ⟨hopened, hnodup.2, ?_⟩)
          rintro c hc _ hc' rfl
          exact hgone c hc hc'
      · have hcount := he.ncard hB hopened hnew
        have hlen := he.pq_perm.length_eq
        have hpop := (Q.pop_perm hpop).length_eq
        simp only [List.length_append, List.length_map, List.length_cons] at hlen hpop
        simp only [remaining] at hcount ⊢
        omega

/-! ## The substitute -/

theorem Precedes.refl (a : α) : B.Precedes a a :=
  .inr ⟨rfl, .inr ⟨rfl, Ordering.isLE_of_eq_eq (Std.ReflCmp.compare_self)⟩⟩

theorem Precedes.trans (h₁ : B.Precedes a b) (h₂ : B.Precedes b c) : B.Precedes a c := by
  rcases h₁ with h₁ | ⟨h₁, hd₁⟩
  · rcases h₂ with h₂ | ⟨h₂, -⟩
    · exact .inl (h₁.trans h₂)
    · exact .inl (h₂ ▸ h₁)
  · rcases h₂ with h₂ | ⟨h₂, hd₂⟩
    · exact .inl (h₁ ▸ h₂)
    · refine .inr ⟨h₁.trans h₂, ?_⟩
      rcases hd₁ with hd₁ | ⟨hd₁, hle₁⟩
      · rcases hd₂ with hd₂ | ⟨hd₂, -⟩
        · exact .inl (hd₁.trans hd₂)
        · exact .inl (hd₂ ▸ hd₁)
      · rcases hd₂ with hd₂ | ⟨hd₂, hle₂⟩
        · exact .inl (hd₁ ▸ hd₂)
        · exact .inr ⟨hd₁.trans hd₂, TransOrd.isLE_trans hle₁ hle₂⟩

theorem Precedes.antisymm (h₁ : B.Precedes a b) (h₂ : B.Precedes b a) : a = b := by
  rcases h₁ with h₁ | ⟨h₁, hd₁⟩
  · rcases h₂ with h₂ | ⟨h₂, -⟩
    · exact absurd (h₁.trans h₂) (lt_irrefl _)
    · exact absurd h₁ (h₂ ▸ lt_irrefl _)
  · rcases h₂ with h₂ | ⟨-, hd₂⟩
    · exact absurd h₂ (h₁ ▸ lt_irrefl _)
    · rcases hd₁ with hd₁ | ⟨hd₁, hle₁⟩
      · rcases hd₂ with hd₂ | ⟨hd₂, -⟩
        · exact absurd (hd₁.trans hd₂) (lt_irrefl _)
        · exact absurd hd₁ (hd₂ ▸ lt_irrefl _)
      · rcases hd₂ with hd₂ | ⟨-, hle₂⟩
        · exact absurd hd₂ (hd₁ ▸ lt_irrefl _)
        · exact LawfulEqCmp.eq_of_compare (Std.OrientedCmp.isLE_antisymm hle₁ hle₂)

/-- One entry leaves the better of two positions, and the first of them if they are equally
good. -/
theorem closest_eq (B : BestFirst α K N) (hab : (compare a b).isLE) :
    ∃ e, (e = a ∨ e = b) ∧ B.Precedes e a ∧ B.Precedes e b ∧
      B.closest (a, B.score (B.cost a)) (b, B.cost b) = (e, B.score (B.cost e)) := by
  by_cases heq : B.score (B.cost a) = B.score (B.cost b)
  · by_cases hlt : B.detour b < B.detour a
    · refine ⟨b, .inr rfl, .inr ⟨heq.symm, .inl hlt⟩, .refl b, ?_⟩
      rw [closest, if_pos heq, if_pos hlt, heq]
    · have hdetour : B.detour a < B.detour b ∨ B.detour a = B.detour b ∧ (compare a b).isLE :=
        (not_lt.1 hlt).lt_or_eq.imp id fun heq => ⟨heq, hab⟩
      refine ⟨a, .inl rfl, .refl a, .inr ⟨heq, hdetour⟩, ?_⟩
      rw [closest, if_pos heq, if_neg hlt]
  · by_cases hlt : B.score (B.cost b) < B.score (B.cost a)
    · refine ⟨b, .inr rfl, .inl hlt, .refl b, ?_⟩
      rw [closest, if_neg heq, if_pos hlt]
    · refine ⟨a, .inl rfl, .refl a, .inl (lt_of_le_of_ne (not_lt.1 hlt) heq), ?_⟩
      rw [closest, if_neg heq, if_neg hlt]

/-- The loop leaves the best of all positions, which it comes to in their order. -/
theorem foldl_closest (B : BestFirst α K N) (a : α) (cells : List α)
    (hsorted : (a :: cells).Pairwise fun a b => (compare a b).isLE) :
    ∃ d ∈ a :: cells, (∀ c ∈ a :: cells, B.Precedes d c) ∧
      (cells.map fun c => (c, B.cost c)).foldl B.closest (a, B.score (B.cost a)) =
        (d, B.score (B.cost d)) := by
  induction cells generalizing a with
  | nil =>
    refine ⟨a, List.mem_singleton_self a, fun c hc => ?_, rfl⟩
    rw [List.mem_singleton.1 hc]
    exact .refl a
  | cons b cells ih =>
    obtain ⟨ha, hb⟩ := List.pairwise_cons.1 hsorted
    obtain ⟨hb, hcells⟩ := List.pairwise_cons.1 hb
    obtain ⟨e, hor, hea, heb, heq⟩ := B.closest_eq (ha b List.mem_cons_self)
    have he : ∀ c ∈ cells, (compare e c).isLE := by
      rcases hor with rfl | rfl
      · exact fun c hc => ha c (List.mem_cons_of_mem _ hc)
      · exact hb
    obtain ⟨d, hd, hgood, hfold⟩ := ih e (List.pairwise_cons.2 ⟨he, hcells⟩)
    have hde := hgood e List.mem_cons_self
    refine ⟨d, ?_, fun c hc => ?_, ?_⟩
    · rcases List.mem_cons.1 hd with rfl | hd
      · rcases hor with rfl | rfl
        · exact List.mem_cons_self
        · exact List.mem_cons_of_mem _ List.mem_cons_self
      · exact List.mem_cons_of_mem _ (List.mem_cons_of_mem _ hd)
    · rcases List.mem_cons.1 hc with rfl | hc
      · exact hde.trans hea
      · rcases List.mem_cons.1 hc with rfl | hc
        · exact hde.trans heb
        · exact hgood c (List.mem_cons_of_mem _ hc)
    · rw [List.map_cons, List.foldl_cons, heq, hfold]

/-- **The substitute is the best position that was seen.** -/
theorem destination_precedes (hB : B.Lawful) (h : B.Sound st) :
    B.destination false st ∈ st.best ∧ ∀ c ∈ st.best, B.Precedes (B.destination false st) c := by
  have hlist : st.best.toList = st.best.keys.map fun c => (c, B.cost c) := by
    rw [← ExtTreeMap.map_fst_toList_eq_keys, List.map_map]
    refine (List.map_id _).symm.trans (List.map_congr_left ?_)
    rintro ⟨c, cost⟩ hitem
    rw [ExtTreeMap.mem_toList_iff_getElem?_eq_some] at hitem
    have hcost := h.costed.best_eq c (ExtTreeMap.mem_iff_isSome_getElem?.2 (by rw [hitem]; rfl))
    rw [ExtTreeMap.getD_eq_getD_getElem?, hitem, Option.getD_some] at hcost
    exact Prod.ext rfl hcost
  have hmem : ∀ c, c ∈ st.best ↔ c ∈ st.best.keys := fun c => ExtTreeMap.mem_keys.symm
  have hreach : ∀ c ∈ st.best.keys, B.Reachable c := fun c hc =>
    h.explored.reachable c ((hmem c).2 hc)
  have hsrc : B.src ∈ st.best.keys := (hmem _).1 h.explored.start_mem
  have hsorted : st.best.keys.Pairwise fun a b => (compare a b).isLE :=
    ExtTreeMap.ordered_keys.imp Ordering.isLE_of_eq_lt
  have hdest : B.destination false st =
      (st.best.toList.foldl B.closest (B.dest, B.top)).1 := rfl
  simp only [hmem]
  rw [hdest, hlist]
  cases hkeys : st.best.keys with
  | nil =>
    rw [hkeys] at hsrc
    cases hsrc
  | cons a cells =>
    rw [hkeys] at hreach hsorted
    -- every score is below `top`, so the first entry is taken
    have htop := hB.score_lt_top a (hreach a List.mem_cons_self)
    have hfirst : B.closest (B.dest, B.top) (a, B.cost a) = (a, B.score (B.cost a)) := by
      rw [closest, if_neg htop.ne', if_pos htop]
    obtain ⟨d, hd, hgood, hfold⟩ := B.foldl_closest a cells hsorted
    rw [List.map_cons, List.foldl_cons, hfirst, hfold]
    exact ⟨hd, hgood⟩

/-! ## The result -/

/-- Where a way from `src` ends that cannot be improved upon: at `dest` if that can be reached, and
else at the first position that none is better than. -/
structure IsGoal (B : BestFirst α K N) (d : α) : Prop where
  reachable : B.Reachable d
  eq_dest : B.Reachable B.dest → d = B.dest
  precedes : ¬ B.Reachable B.dest → ∀ c, B.Reachable c → B.Precedes d c

theorem IsGoal.unique (h : B.IsGoal a) (h' : B.IsGoal b) : a = b := by
  by_cases hdest : B.Reachable B.dest
  · rw [h.eq_dest hdest, h'.eq_dest hdest]
  · exact (h.precedes hdest b h'.reachable).antisymm (h'.precedes hdest a h.reachable)

/-- The walk passes the trail of where it starts. -/
theorem walk_returns {l : List α} (h : Trail (fun c => st.parent.getD c default) a l)
    (path : List α) : Loop.Returns (walkBody st.parent) (path, a) (path ++ l) := by
  induction h generalizing path with
  | fixed hfix => exact Loop.returns_of_inr (if_pos hfix.symm)
  | @step a l hne _ ih =>
    have hb : walkBody st.parent (path, a) =
        .inl (path ++ [a], st.parent.getD a default) := if_neg hne.symm
    rw [Loop.returns_iff_of_inl hb, List.append_cons path a l]
    exact ih _

/-- **The search ends.** -/
theorem search_terminates (hB : B.Lawful) (Q : PriorityQueue N B.nodeCost) :
    Loop.Terminates (B.searchBody Q) (B.start Q) := by
  refine Loop.terminates_of_measure (P := B.Sound) B.remaining ?_ sound_start
  intro st st' hst hb
  obtain ⟨-, -, -, -, -, -, hst', hlt⟩ := expands_of_searchBody hB hst hb
  exact ⟨hst', hlt⟩

theorem Sound.of_reaches (hB : B.Lawful) (h : Loop.Reaches (B.searchBody Q) st st')
    (hst : B.Sound st) : B.Sound st' := by
  refine h.of_invariant (fun st st' hst hb => ?_) hst
  obtain ⟨-, -, -, -, -, -, hst', -⟩ := expands_of_searchBody hB hst hb
  exact hst'

/-- Where the way leads cannot be improved upon. -/
theorem isGoal_destination (hB : B.Lawful) (h : B.Sound st)
    (hbest : st'.best = st.best) (htrue : found = true → B.dest ∈ st.best)
    (hfalse : found = false → st.pq = []) :
    B.destination found st' ∈ st.best ∧ B.IsGoal (B.destination found st') := by
  cases found with
  | true =>
    have hmem := htrue rfl
    have hreach := h.explored.reachable _ hmem
    exact ⟨hmem, hreach, fun _ => rfl, fun hnot => absurd hreach hnot⟩
  | false =>
    have hempty : ∀ c, c ∉ (st.linked B).pending := by
      rintro c ⟨node, hnode, -⟩
      rw [hfalse rfl] at hnode
      cases hnode
    have hseen : ∀ c, c ∈ st.best ↔ B.Reachable c := fun c => h.explored.mem_seen_iff hempty
    have hdest : B.destination false st' = B.destination false st := by
      simp only [destination, hbest]
    obtain ⟨hmem, hgood⟩ := destination_precedes hB h
    rw [hdest]
    refine ⟨hmem, (hseen _).1 hmem, fun hreach => ?_, fun _ c hc => hgood c ((hseen c).2 hc)⟩
    -- `dest` would still be pending
    exact absurd (h.dest_pending ((hseen _).2 hreach)) (hempty _)

/-- The search leaves from a state in which the links lead back from the goal, and the walk follows
them. -/
structure Result (B : BestFirst α K N) (Q : PriorityQueue N B.nodeCost)
    (st : Containers α K N) (d : α) (l : List α) : Prop where
  reaches : Loop.Reaches (B.searchBody Q) (B.start Q) st
  last : ∃ res, B.searchBody Q st = .inr res
  sound : B.Sound st
  mem_best : d ∈ st.best
  isGoal : B.IsGoal d
  trail : Trail (st.linked B).link d l

theorem exists_result (hB : B.Lawful) (Q : PriorityQueue N B.nodeCost) :
    ∃ fuel l, B.run Q fuel = some l.reverse ∧ ∃ st d, B.Result Q st d l := by
  obtain ⟨⟨found, st'⟩, hs⟩ := search_terminates hB Q
  obtain ⟨st, hreach, hlast⟩ := hs.exists_last
  have hst : B.Sound st := sound_start.of_reaches hB hreach
  obtain ⟨hbest, hparent, htrue, hfalse⟩ := searchBody_eq_inr hB hst hlast
  obtain ⟨hmem, hgoal⟩ := isGoal_destination hB hst hbest htrue hfalse
  obtain ⟨l, hl⟩ := (hst.treelike.settles _ hmem).exists_trail
  have hwalk : Loop.Returns (walkBody st'.parent) ([], B.destination found st') l := by
    rw [hparent]
    exact walk_returns hl []
  obtain ⟨m, hm⟩ := hs
  obtain ⟨n, hn⟩ := hwalk
  refine ⟨m + n, l, ?_, st, _, hreach, ⟨_, hlast⟩, hst, hmem, hgoal, hl⟩
  rw [run, Loop.run_mono (Nat.le_add_right m n) hm, Option.bind_some]
  simp only
  rw [Loop.run_mono (Nat.le_add_left n m) hn, Option.map_some]

/-- **The search and the walk end.** -/
theorem exists_run (hB : B.Lawful) (Q : PriorityQueue N B.nodeCost) :
    ∃ fuel, (B.run Q fuel).isSome := by
  obtain ⟨fuel, l, hrun, -⟩ := exists_result hB Q
  exact ⟨fuel, hrun ▸ rfl⟩

theorem run_mono {m n : ℕ} (hmn : m ≤ n) {path : List α} (h : B.run Q m = some path) :
    B.run Q n = some path := by
  rw [run, Option.bind_eq_some_iff] at h ⊢
  obtain ⟨⟨found, st⟩, hs, hw⟩ := h
  obtain ⟨l, hl, rfl⟩ := Option.map_eq_some_iff.1 hw
  refine ⟨_, Loop.run_mono hmn hs, ?_⟩
  simp only
  rw [Loop.run_mono hmn hl, Option.map_some]

/-- **What the search returns** is the trail of its goal, read backwards. -/
theorem result_of_run (hB : B.Lawful) {fuel : ℕ} {path : List α}
    (h : B.run Q fuel = some path) : ∃ st d, B.Result Q st d path.reverse := by
  obtain ⟨n, l, hrun, hres⟩ := exists_result hB Q
  have h' := run_mono (Nat.le_add_right fuel n) h
  rw [run_mono (Nat.le_add_left n fuel) hrun] at h'
  rw [← Option.some.inj h', List.reverse_reverse]
  exact hres

theorem Result.isWay (hB : B.Lawful) {d : α} {path : List α}
    (h : B.Result Q st d path.reverse) :
    IsWay B.Steps B.src d path ∧ path.Nodup ∧ ∀ c ∈ path, c ∈ st.best := by
  have hirr : ∀ b, ¬ B.Steps b b := fun b hb => hB.not_mem_neighbours b hb.1
  have hway := h.sound.linked.isWay h.sound.explored.link_mem hirr h.mem_best h.trail
  rwa [List.reverse_reverse] at hway

/-- **The way** starts at `src`, takes a step at a time to a goal, and passes no position twice. -/
theorem spec (hB : B.Lawful) {fuel : ℕ} {path : List α} (h : B.run Q fuel = some path) :
    ∃ d, B.IsGoal d ∧ IsWay B.Steps B.src d path ∧ path.Nodup ∧ ∀ c ∈ path, B.Reachable c := by
  obtain ⟨st, d, hres⟩ := result_of_run hB h
  obtain ⟨hway, hnodup, hseen⟩ := hres.isWay hB
  exact ⟨d, hres.isGoal, hway, hnodup,
    fun c hc => hres.sound.explored.reachable c (hseen c hc)⟩

/-! ## Whatever the costs are -/

/-- The queue and the links know only what was seen, and the links are steps. -/
structure Rooted (B : BestFirst α K N) (st : Containers α K N) : Prop where
  src_mem : B.src ∈ st.best
  pending_sub : ∀ c ∈ (st.linked B).pending, c ∈ st.best
  link_mem : ∀ c ∈ st.best, (st.linked B).link c ∈ st.best
  linked : (st.linked B).Linked B.Steps B.src

theorem Rooted.visit (h : B.Rooted st) (hpos : pos ∈ st.best) (hc : c ∈ B.neighbours pos) :
    B.Rooted (B.visit Q pos st c) ∧ pos ∈ (B.visit Q pos st c).best := by
  unfold BestFirst.visit
  split
  · exact ⟨h, hpos⟩
  · rename_i henters
    have hstep : B.Steps pos c := ⟨hc, eq_true_of_ne_false henters⟩
    simp only
    split
    · exact ⟨h, hpos⟩
    · have hlink : ∀ b, ((B.enter Q pos st c).linked B).link b =
          if b = c then pos else (st.linked B).link b := link_enter
      refine ⟨⟨mem_best_enter.2 (.inr h.src_mem), fun b hb => ?_, fun b hb => ?_, fun b hb => ?_⟩,
        mem_best_enter.2 (.inr hpos)⟩
      · obtain ⟨node, hnode, rfl⟩ := hb
        rcases Q.mem_push.1 hnode with rfl | hnode
        · exact mem_best_enter.2 (.inl (B.nodePos_node _ _))
        · exact mem_best_enter.2 (.inr (h.pending_sub _ ⟨node, hnode, rfl⟩))
      · rw [hlink]
        split
        · exact mem_best_enter.2 (.inr hpos)
        · rename_i hne
          exact mem_best_enter.2 (.inr (h.link_mem b ((mem_best_enter.1 hb).resolve_left hne)))
      · rw [hlink]
        split
        · rename_i heq
          exact .inr (heq ▸ hstep)
        · rename_i hne
          exact h.linked b ((mem_best_enter.1 hb).resolve_left hne)

theorem Rooted.foldl_visit (h : B.Rooted st) (hpos : pos ∈ st.best)
    (hcells : ∀ c ∈ cells, c ∈ B.neighbours pos) : B.Rooted (cells.foldl (B.visit Q pos) st) := by
  induction cells generalizing st with
  | nil => exact h
  | cons c cells ih =>
    obtain ⟨h', hpos'⟩ := h.visit (Q := Q) hpos (hcells c List.mem_cons_self)
    exact ih h' hpos' fun b hb => hcells b (List.mem_cons_of_mem _ hb)

theorem rooted_of_returns {res : Bool × Containers α K N}
    (h : Loop.Returns (B.searchBody Q) (B.start Q) res) :
    B.Rooted res.2 ∧ (res.1 = true → B.dest ∈ res.2.best) := by
  have hpop : ∀ {st : Containers α K N} {node pq}, B.Rooted st → Q.pop st.pq = some (node, pq) →
      B.Rooted { st with pq := pq } ∧ B.nodePos node ∈ st.best := by
    intro st node pq hst hpop
    have hmem : ∀ n, n ∈ st.pq ↔ n = node ∨ n ∈ pq := fun n => Q.mem_of_pop hpop
    refine ⟨{ hst with pending_sub := ?_ }, hst.pending_sub _ ⟨node, (hmem node).2 (.inl rfl), rfl⟩⟩
    rintro c ⟨n, hn, rfl⟩
    exact hst.pending_sub _ ⟨n, (hmem n).2 (.inr hn), rfl⟩
  have hstart : B.Rooted (B.start Q) := ⟨sound_start.explored.start_mem,
    sound_start.explored.pending_sub, sound_start.explored.link_mem, sound_start.linked⟩
  refine h.of_invariant (P := B.Rooted)
    (Q := fun res => B.Rooted res.2 ∧ (res.1 = true → B.dest ∈ res.2.best)) ?_ ?_ hstart
  · intro st st' hst hb
    unfold searchBody at hb
    split at hb
    · cases hb
    · rename_i node pq htop
      obtain ⟨hpq, hpos⟩ := hpop hst htop
      simp only at hb
      split at hb
      · cases hb
        exact hpq
      · split at hb
        · cases hb
        · cases hb
          exact hpq.foldl_visit hpos fun _ hc => hc
  · intro st res hst hb
    unfold searchBody at hb
    split at hb
    · cases hb
      exact ⟨hst, fun hf => (Bool.false_ne_true hf).elim⟩
    · rename_i node pq htop
      obtain ⟨hpq, hpos⟩ := hpop hst htop
      simp only at hb
      split at hb
      · cases hb
      · split at hb
        · rename_i hdest
          cases hb
          exact ⟨hpq, fun _ => hdest ▸ hpos⟩
        · cases hb

theorem foldl_closest_fst (B : BestFirst α K N) (items : List (α × K)) (best : α × ℤ) :
    (items.foldl B.closest best).1 = best.1 ∨
      (items.foldl B.closest best).1 ∈ items.map Prod.fst := by
  induction items generalizing best with
  | nil => exact .inl rfl
  | cons item items ih =>
    have hfst : (B.closest best item).1 = best.1 ∨ (B.closest best item).1 = item.1 := by
      unfold closest
      split_ifs <;> simp
    rw [List.foldl_cons, List.map_cons, List.mem_cons]
    rcases ih (B.closest best item) with h | h
    · rw [h]
      exact hfst.imp_right .inl
    · exact .inr (.inr h)

theorem Rooted.destination_mem (h : B.Rooted st) (htop : ∀ k, B.score k < B.top)
    (hfound : found = true → B.dest ∈ st.best) : B.destination found st ∈ st.best := by
  cases found with
  | true => exact hfound rfl
  | false =>
    have hdest : B.destination false st =
        (st.best.toList.foldl B.closest (B.dest, B.top)).1 := rfl
    rw [hdest, ← ExtTreeMap.mem_keys, ← ExtTreeMap.map_fst_toList_eq_keys]
    have hsrc := ExtTreeMap.mem_keys.2 h.src_mem
    rw [← ExtTreeMap.map_fst_toList_eq_keys] at hsrc
    cases htoList : st.best.toList with
    | nil =>
      rw [htoList] at hsrc
      cases hsrc
    | cons item items =>
      -- the first entry is taken, whatever its cost is
      have hfirst : B.closest (B.dest, B.top) item = (item.1, B.score item.2) := by
        rw [closest, if_neg (htop item.2).ne', if_pos (htop item.2)]
      rw [List.foldl_cons, hfirst, List.map_cons, List.mem_cons]
      exact B.foldl_closest_fst items _

/-- What the walk passes is a trail. -/
theorem trail_of_walk {path path' : List α}
    (h : Loop.Returns (walkBody st.parent) (path, a) path') :
    ∃ l, path' = path ++ l ∧ Trail (fun c => st.parent.getD c default) a l := by
  obtain ⟨n, hn⟩ := h
  induction n generalizing path a with
  | zero => cases hn
  | succ n ih =>
    by_cases hfix : st.parent.getD a default = a
    · have hb : walkBody st.parent (path, a) = .inr (path ++ [a]) := if_pos hfix.symm
      rw [Loop.run_succ_of_inr hb] at hn
      exact ⟨[a], (Option.some.inj hn).symm, .fixed hfix⟩
    · have hb : walkBody st.parent (path, a) =
          .inl (path ++ [a], st.parent.getD a default) := if_neg (Ne.symm hfix)
      rw [Loop.run_succ_of_inl hb] at hn
      obtain ⟨l, hl, htrail⟩ := ih hn
      exact ⟨a :: l, by rw [hl, List.append_assoc, List.singleton_append], .step hfix htrail⟩

/-- **What is returned is a way from `src`**, whatever the costs are. -/
theorem isWay_of_run (htop : ∀ k, B.score k < B.top) (hirr : ∀ a, a ∉ B.neighbours a) {fuel : ℕ}
    {path : List α} (h : B.run Q fuel = some path) :
    ∃ d, IsWay B.Steps B.src d path := by
  obtain ⟨⟨found, st⟩, hs, hw⟩ := Option.bind_eq_some_iff.1 h
  obtain ⟨l', hl', rfl⟩ := Option.map_eq_some_iff.1 hw
  obtain ⟨hrooted, hfound⟩ := rooted_of_returns ⟨fuel, hs⟩
  obtain ⟨l, rfl, htrail⟩ := trail_of_walk ⟨fuel, hl'⟩
  exact ⟨_, (hrooted.linked.isWay hrooted.link_mem (fun b hb => hirr b hb.1)
    (hrooted.destination_mem htop hfound) htrail).1⟩

end BestFirst

end Zelda
