import Zelda.Foundations.Worklist
import Zelda.Server.Updates

/-!
# How long an update searches

The search of `FindPath` only enters cells less than 10 steps away from where it starts, of which
there are 181, and every one of them once, except for the cell of cost 0, which each of its four
neighbours may enter again. So it leaves after at most 186 passes, on a map of any size, and the
walk back along the parents, if it leaves at all, after at most 181.

Main lemmas: `search_passes` for the search, `findPath_passes` for both loops.

Main result: `update_passes`. With 186 passes for each loop, an update does what it does with any
other number of passes that it comes to an end with.
-/

namespace Zelda.Server

open Std Protocol Worklist SearchState

/-! ## The cells around a cell -/

section

variable {Q : PriorityQueue PQNode PQNode.cost} {r : GameRoom} {src dest again pos : Vec2Int}
  {st st' : SearchState}

/-- The cells less than 10 steps away, with no coordinate wrapping around. -/
noncomputable def nearby (src : Vec2Int) : Finset Vec2Int :=
  (Set.toFinite {c | src.gap c < 10}).toFinset

theorem mem_nearby {c : Vec2Int} : c ∈ nearby src ↔ src.gap c < 10 := by
  rw [nearby, Set.Finite.mem_toFinset, Set.mem_ofPred_eq]

/-- The differences of two cells less than 10 steps apart. -/
noncomputable def diamond : Finset (ℤ × ℤ) :=
  (Finset.Icc (-9) 9 ×ˢ Finset.Icc (-9) 9).filter fun d => d.1.natAbs + d.2.natAbs < 10

theorem card_diamond : diamond.card = 181 := by decide +kernel

theorem card_nearby_le (src : Vec2Int) : (nearby src).card ≤ 181 := by
  rw [← card_diamond]
  refine Finset.card_le_card_of_injOn
    (fun c => (src.y.toInt - c.y.toInt, src.x.toInt - c.x.toInt)) ?_ ?_
  · intro c hc
    rw [Finset.mem_coe, mem_nearby, Vec2Int.gap] at hc
    rw [Finset.mem_coe, diamond, Finset.mem_filter, Finset.mem_product, Finset.mem_Icc,
      Finset.mem_Icc]
    simp only
    omega
  · intro c _ c' _ h
    obtain ⟨hy, hx⟩ := Prod.mk.inj h
    exact Vec2Int.ext (Int32.toInt_inj.1 (by omega)) (Int32.toInt_inj.1 (by omega))

/-! ## Passes of the search -/

/-- How many of the four directions lead from `c` to `again`. -/
def ways (again c : Vec2Int) : ℕ := (front.map fun dir => if c + dir = again then 1 else 0).sum

/-- What a node of the queue stands for: the pass that takes it, and the passes that take `again`
because of it. -/
def passes (again c : Vec2Int) : ℕ := 1 + ways again c

theorem ways_self (again : Vec2Int) : ways again again = 0 := by
  have hlt := sum_again_lt again again
  rw [if_pos rfl] at hlt
  exact Nat.lt_one_iff.1 hlt

/-- A direction leads to `again` from one cell. -/
theorem sum_way_le (again dir : Vec2Int) (cells : Finset Vec2Int) :
    ∑ c ∈ cells, (if c + dir = again then 1 else 0) ≤ 1 := by
  rw [Finset.sum_boole, Nat.cast_id, Finset.card_le_one]
  intro a ha b hb
  have heq : a + dir = b + dir :=
    (Finset.mem_filter.1 ha).2.trans (Finset.mem_filter.1 hb).2.symm
  have hx : a.x + dir.x = b.x + dir.x := congrArg Vec2Int.x heq
  have hy : a.y + dir.y = b.y + dir.y := congrArg Vec2Int.y heq
  exact Vec2Int.ext ((Int32.add_left_inj dir.x).1 hx) ((Int32.add_left_inj dir.y).1 hy)

theorem sum_ways_le_length (again : Vec2Int) (cells : Finset Vec2Int) (dirs : List Vec2Int) :
    ∑ c ∈ cells, (dirs.map fun dir => if c + dir = again then 1 else 0).sum ≤ dirs.length := by
  induction dirs with
  | nil =>
    simp only [List.map_nil, List.sum_nil, Finset.sum_const_zero]
    exact Nat.zero_le _
  | cons dir dirs ih =>
    have hway := sum_way_le again dir cells
    simp only [List.map_cons, List.sum_cons, Finset.sum_add_distrib, List.length_cons]
    omega

theorem sum_ways_le (again : Vec2Int) (cells : Finset Vec2Int) :
    ∑ c ∈ cells, ways again c ≤ 4 := sum_ways_le_length again cells front

/-- The cells that the search can still enter for the first time. -/
noncomputable def unseen (src again : Vec2Int) (st : SearchState) : Finset Vec2Int :=
  (nearby src).filter fun c => c ∉ st.best ∧ c ≠ again

/-- The passes that may be left. -/
noncomputable def passesLeft (src again : Vec2Int) (st : SearchState) : ℕ :=
  backlog (passes again) (unseen src again st) (st.pq.map PQNode.pos)

theorem unseen_insert {c : Vec2Int} {cost : Int32} {pq : List PQNode}
    {parent : ExtTreeMap Vec2Int Vec2Int} :
    unseen src again ⟨pq, st.best.insert c cost, parent⟩ = (unseen src again st).erase c := by
  ext c'
  simp only [unseen, Finset.mem_filter, Finset.mem_erase, ExtTreeMap.mem_insert,
    LawfulEqCmp.compare_eq_iff_eq, not_or]
  constructor
  · rintro ⟨hnear, ⟨hne, hnot⟩, hagain⟩
    exact ⟨Ne.symm hne, hnear, hnot, hagain⟩
  · rintro ⟨hne, hnear, hnot, hagain⟩
    exact ⟨hnear, ⟨Ne.symm hne, hnot⟩, hagain⟩

/-- A neighbour that is entered was counted before, unless it is `again`. -/
theorem passesLeft_visit (Q : PriorityQueue PQNode PQNode.cost) (hst : st.Costed dest)
    {dir : Vec2Int} (hnear : inReach r src 10 (pos + dir) = true → src.gap (pos + dir) < 10)
    (hzero : inReach r src 10 (pos + dir) = true → dest.distance (pos + dir) = 0 →
      pos + dir = again) :
    passesLeft src again (visit Q r src dest 10 pos st dir) ≤
      passesLeft src again st + if pos + dir = again then 1 else 0 := by
  by_cases h : st.Open r src dest 10 (pos + dir)
  · rw [visit_of_open hst h, passesLeft, unseen_insert,
      backlog_perm ((Q.push_perm _ _).map PQNode.pos), List.map_cons]
    split
    · rename_i heq
      have hmono : backlog (passes again) ((unseen src again st).erase (pos + dir))
          (st.pq.map PQNode.pos) ≤ passesLeft src again st :=
        backlog_mono (Finset.erase_subset _ _)
      have hpasses : passes again (pos + dir) = 1 := by rw [passes, heq, ways_self]
      rw [backlog_cons, hpasses]
      omega
    · rename_i hne
      -- a cell other than `again` is open because it has not been seen
      have hnot : pos + dir ∉ st.best := h.2.resolve_right fun h0 => hne (hzero h.1 h0)
      have hmem : pos + dir ∈ unseen src again st :=
        Finset.mem_filter.2 ⟨mem_nearby.2 (hnear h.1), hnot, hne⟩
      rw [backlog_enter hmem]
      exact Nat.le_refl _
  · rw [visit_of_not_open hst h]
    exact Nat.le_add_right _ _

theorem passesLeft_foldl (Q : PriorityQueue PQNode PQNode.cost) (hst : st.Costed dest)
    {dirs : List Vec2Int}
    (hnear : ∀ dir ∈ dirs, inReach r src 10 (pos + dir) = true → src.gap (pos + dir) < 10)
    (hzero : ∀ dir ∈ dirs, inReach r src 10 (pos + dir) = true →
      dest.distance (pos + dir) = 0 → pos + dir = again) :
    passesLeft src again (dirs.foldl (visit Q r src dest 10 pos) st) ≤
      passesLeft src again st + (dirs.map fun dir => if pos + dir = again then 1 else 0).sum := by
  induction dirs generalizing st with
  | nil => exact Nat.le_refl _
  | cons dir dirs ih =>
    have hvisit := passesLeft_visit Q hst (hnear dir List.mem_cons_self)
      (hzero dir List.mem_cons_self)
    have hcosted : (visit Q r src dest 10 pos st dir).Costed dest :=
      (visited_visit Q hst dir).costed
    have hrest := ih hcosted
      (fun d hd => hnear d (List.mem_cons_of_mem _ hd))
      (fun d hd => hzero d (List.mem_cons_of_mem _ hd))
    rw [List.foldl_cons, List.map_cons, List.sum_cons]
    omega

/-- A pass takes a cell, whose own pass and whose ways to `again` pay for what it enters. -/
theorem passesLeft_lt (hagain : OnlyZero r src dest 10 again) (hst : st.Sound r src dest 10)
    (h : searchBody Q r src dest 10 st = .inl st') :
    passesLeft src again st' < passesLeft src again st := by
  obtain ⟨node, pq, hpop, -, rfl⟩ := searchBody_eq_inl hst h
  have hnode : node ∈ st.pq := (Q.mem_of_pop hpop).2 (.inl rfl)
  have hreach := hst.explored.reachable _ (hst.explored.pending_sub _ ⟨node, hnode, rfl⟩)
  have hcosted : ({ st with pq := pq } : SearchState).Costed dest :=
    ⟨hst.costed.best_eq, fun n hn => hst.costed.cost_eq n ((Q.mem_of_pop hpop).2 (.inr hn))⟩
  have hnear : ∀ dir ∈ front, inReach r src 10 (node.pos + dir) = true →
      src.gap (node.pos + dir) < 10 := fun dir hdir hin =>
    gap_lt_of_reachable (hreach.tail ⟨⟨dir, hdir, rfl⟩, hin⟩)
  have hzero : ∀ dir ∈ front, inReach r src 10 (node.pos + dir) = true →
      dest.distance (node.pos + dir) = 0 → node.pos + dir = again := fun dir hdir hin =>
    (hagain node.pos _ hreach ⟨⟨dir, hdir, rfl⟩, hin⟩).1
  have hle := passesLeft_foldl Q hcosted hnear hzero
  have htaken : passesLeft src again st =
      passesLeft src again { st with pq := pq } + passes again node.pos := by
    rw [passesLeft, backlog_perm ((Q.pop_perm hpop).map PQNode.pos), List.map_cons, backlog_cons]
    rfl
  rw [passes, ways] at htaken
  omega

theorem passesLeft_searchStart (Q : PriorityQueue PQNode PQNode.cost) (src dest again : Vec2Int) :
    passesLeft src again (searchStart Q src dest) ≤ 185 := by
  have hsrc : src ∈ nearby src := mem_nearby.2 (by rw [Vec2Int.gap_eq_zero.2 rfl]; decide)
  have hsub : unseen src again (searchStart Q src dest) ⊆ (nearby src).erase src := by
    intro c hc
    obtain ⟨hnear, hnot, -⟩ := Finset.mem_filter.1 hc
    have hne : c ≠ src := fun heq => hnot (mem_seen_searchStart.2 heq)
    exact Finset.mem_erase.2 ⟨hne, hnear⟩
  have hcard := card_nearby_le src
  have hways := sum_ways_le again (nearby src)
  calc passesLeft src again (searchStart Q src dest)
      = backlog (passes again) (unseen src again (searchStart Q src dest)) [src] :=
        backlog_perm ((Q.push_perm ⟨dest.distance src, src⟩ []).map PQNode.pos)
    _ ≤ backlog (passes again) ((nearby src).erase src) [src] := backlog_mono hsub
    _ = ∑ c ∈ nearby src, passes again c := by
        rw [backlog_enter hsrc, backlog, List.map_nil, List.sum_nil, Nat.add_zero]
    _ = (nearby src).card + ∑ c ∈ nearby src, ways again c := by
        simp only [passes, Finset.sum_add_distrib, Finset.sum_const, smul_eq_mul, mul_one]
    _ ≤ 185 := by omega

/-- Of the two cells of cost 0, at most one is entered. -/
theorem exists_onlyZero (r : GameRoom) (src dest : Vec2Int) :
    ∃ again, OnlyZero r src dest 10 again := by
  by_cases h : ∃ a, Reachable r src 10 a ∧ Steps r src 10 a dest.antipode
  · obtain ⟨a, -, ha⟩ := h
    refine ⟨dest.antipode, fun b c _ hbc => ?_⟩
    rw [Vec2Int.distance_eq_zero]
    refine or_iff_right ?_
    rintro rfl
    exact not_inside_antipode (inside_of_inReach hbc.2) (inside_of_inReach ha.2)
  · refine ⟨dest, fun b c hb hbc => ?_⟩
    rw [Vec2Int.distance_eq_zero]
    refine or_iff_left ?_
    rintro rfl
    exact h ⟨b, hb, hbc⟩

/-- **The search leaves after at most 186 passes.** -/
theorem search_passes (Q : PriorityQueue PQNode PQNode.cost) (r : GameRoom)
    (src dest : Vec2Int) :
    ∃ res, Loop.run (searchBody Q r src dest 10) 186 (searchStart Q src dest) = some res := by
  obtain ⟨again, hagain⟩ := exists_onlyZero r src dest
  refine Loop.exists_run_of_measure (P := SearchState.Sound r src dest 10) (passesLeft src again)
    ?_ sound_searchStart (Nat.lt_succ_of_le (passesLeft_searchStart Q src dest again))
  intro st st' hst h
  obtain ⟨pos, -, -, -, hst'⟩ := expands_of_searchBody hagain hst h
  exact ⟨hst', passesLeft_lt hagain hst h⟩

/-! ## Passes of the walk -/

/-- Following the links from a cell with a cost stays among the cells nearby. -/
theorem link_mem_nearby {found : Bool}
    (h : Loop.Returns (searchBody Q r src dest 10) (searchStart Q src dest) (found, st))
    {c : Vec2Int} (hc : c ∈ st.best) (k : ℕ) : st.link^[k] c ∈ nearby src := by
  obtain ⟨again, hagain⟩ := exists_onlyZero r src dest
  have hends : ∀ c ∈ st.best, st.link c ∈ st.best ∧ c ∈ nearby src := by
    refine Loop.Returns.of_invariant (P := SearchState.Sound r src dest 10)
      (Q := fun res => ∀ c ∈ res.2.best, res.2.link c ∈ res.2.best ∧ c ∈ nearby src) ?_ ?_
      sound_searchStart h
    · intro st st' hst hb
      obtain ⟨pos, -, -, -, hst'⟩ := expands_of_searchBody hagain hst hb
      exact hst'
    · rintro st ⟨found, st'⟩ hst hb c hc
      obtain ⟨hbest, hparent, -⟩ := searchBody_eq_inr hst hb
      rw [hbest] at hc ⊢
      rw [link, hparent]
      exact ⟨hst.explored.link_mem c hc,
        mem_nearby.2 (gap_lt_of_reachable (hst.explored.reachable c hc))⟩
  have hmem : st.link^[k] c ∈ st.best := by
    induction k generalizing c with
    | zero => exact hc
    | succ k ih => exact ih (hends c hc).1
  exact (hends _ hmem).2

/-- The walk back passes each cell once. -/
theorem walk_passes {n : ℕ} {c : Vec2Int} (path : List Vec2Int)
    (h : st.link (st.link^[n] c) = st.link^[n] c) :
    ∃ walk, Loop.run (walkBody st.parent) (n + 1) (path, c) = some walk := by
  have hstop : ∀ {path c}, st.link c = c → walkBody st.parent (path, c) = .inr (path ++ [c]) :=
    fun h => if_pos h.symm
  induction n generalizing path c with
  | zero => exact ⟨_, Loop.run_succ_of_inr (hstop h) 0⟩
  | succ n ih =>
    by_cases hself : st.link c = c
    · exact ⟨_, Loop.run_succ_of_inr (hstop hself) (n + 1)⟩
    · have hgo : walkBody st.parent (path, c) = .inl (path ++ [c], st.link c) :=
        if_neg (Ne.symm hself)
      rw [Loop.run_succ_of_inl hgo]
      exact ih _ h

/-- **With 186 passes for each loop, `FindPath` does what it does with any number with which it
ends.** -/
theorem findPath_passes (Q : PriorityQueue PQNode PQNode.cost) (r : GameRoom)
    (src dest : Vec2Int) (fuel : ℕ) :
    findPath Q r src dest fuel = none ∨
      findPath Q r src dest fuel = findPath Q r src dest 186 := by
  by_cases hfar : 10 ≤ src.distance dest
  · rw [findPath, findPath, if_pos hfar, if_pos hfar]
    exact .inr rfl
  · rw [or_iff_not_imp_left, ← ne_eq, ← Option.isSome_iff_ne_none]
    intro hsome
    obtain ⟨found, st, hs, hset⟩ :=
      (findPath_isSome_iff.1 ⟨fuel, hsome⟩).resolve_left hfar
    have hmem : destination src dest found st ∈ st.best := by
      obtain ⟨hrooted, hfound⟩ := rooted_of_returns hs
      exact hrooted.destination_mem hfound
    obtain ⟨n, hn, hfixed⟩ := hset.exists_lt_card (link_mem_nearby hs hmem)
    obtain ⟨walk, hwalk⟩ := walk_passes [] hfixed
    have hbound : findPath Q r src dest 186 = some (some walk.reverse) := by
      obtain ⟨res, hres⟩ := search_passes Q r src dest
      rw [findPath, if_neg hfar, hres, Loop.Returns.unique ⟨_, hres⟩ hs]
      simp only [Option.bind_eq_bind, Option.bind_some]
      rw [Loop.run_mono (hn.trans_le (card_nearby_le src) |>.trans (by decide)) hwalk]
      rfl
    obtain ⟨res, hres⟩ := Option.isSome_iff_exists.1 hsome
    rcases le_total fuel 186 with hle | hle
    · rw [hres, findPath_mono hle hres]
    · rw [hbound, findPath_mono hle hbound]

end

/-! ## Updates -/

theorem updateIdle_passes (P : Platform) (fuel : ℕ) (now : UInt64) (id : ObjectId) (w : World) :
    updateIdle P fuel now id w = .error .outOfFuel ∨
      updateIdle P fuel now id w = updateIdle P 186 now id w := by
  unfold updateIdle
  cases w.room.monsters[id]? with
  | none => exact .inr rfl
  | some m =>
    simp only
    split
    · exact .inr rfl
    · set target := if (w.room.lock m.target).isNone then
        w.room.findClosestPlayer m.info.getCellPos else m.target
      set w₁ := w.setTarget id target
      cases w₁.room.lock target with
      | none => exact .inr rfl
      | some locked =>
        obtain ⟨pid, player⟩ := locked
        simp only
        split
        · exact .inr rfl
        · rcases findPath_passes P.pq w₁.room m.info.getCellPos player.info.getCellPos fuel
            with hnone | heq
          · rw [hnone]
            exact .inl rfl
          · rw [heq]
            exact .inr rfl

theorem updateMonster_passes (P : Platform) (fuel : ℕ) (now : UInt64) (id : ObjectId)
    (w : World) :
    updateMonster P fuel now id w = .error .outOfFuel ∨
      updateMonster P fuel now id w = updateMonster P 186 now id w := by
  unfold updateMonster
  cases w.room.info? (.monster id) with
  | none => exact .inr rfl
  | some info =>
    simp only
    split
    · exact updateIdle_passes P fuel now id w
    · exact .inr rfl

theorem updateFrom_passes (P : Platform) (fuel : ℕ) (clock : ObjectId → UInt64)
    (ids : List ObjectId) (w : World) :
    updateFrom P fuel clock ids w = .error .outOfFuel ∨
      updateFrom P fuel clock ids w = updateFrom P 186 clock ids w := by
  induction ids generalizing w with
  | nil => exact .inr rfl
  | cons id ids ih =>
    rw [updateFrom, updateFrom]
    split
    · rcases updateMonster_passes P fuel (clock id) id w with hout | heq
      · rw [hout]
        exact .inl rfl
      · rw [heq]
        cases updateMonster P 186 (clock id) id w with
        | error fault => exact .inr rfl
        | ok w₁ =>
          show (if id ∈ w₁.room.monsters then updateFrom P fuel clock ids w₁ else _) = _ ∨
            (if id ∈ w₁.room.monsters then updateFrom P fuel clock ids w₁ else _) =
              if id ∈ w₁.room.monsters then updateFrom P 186 clock ids w₁ else _
          split
          · exact ih w₁
          · exact .inr rfl
    · exact ih w

/-- **An update searches for a bounded time.** Whatever the map and whoever stands on it, every
search that it makes leaves after at most 186 passes; and if the update comes to an end at all, then
it does with at most 186 passes of each of its loops. -/
theorem update_passes (P : Platform) (fuel : ℕ) (clock : ObjectId → UInt64) (w : World) :
    (∀ (r : GameRoom) (src dest : Vec2Int), ∃ res,
      Loop.run (searchBody P.pq r src dest 10) 186 (searchStart P.pq src dest) = some res) ∧
    (update P fuel clock w = .error .outOfFuel ∨
      update P fuel clock w = update P 186 clock w) :=
  ⟨search_passes P.pq, updateFrom_passes P fuel clock w.room.monsters.keys w⟩

end Zelda.Server
