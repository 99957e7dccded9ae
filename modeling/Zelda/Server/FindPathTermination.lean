import Zelda.Server.Search

/-!
# When `FindPath` ends

The search always ends: of the two cells of cost 0, `dest` and the cell half the `int32` range away
from it, at most one lies in the map. The walk back along the parents need not. Where the second
cell, `dest.antipode`, can be entered, the cells that are reached through it and its own parent link
to each other, and the walk from such a cell goes round in a circle.

Main lemma: `findPath_terminates_iff`. `FindPath` ends unless the cell it settles for, the first of
the cells it can reach, can only be reached through `dest.antipode`.
-/

namespace Zelda.Server

open Std

/-- The cells that the search can come to without passing through `again`. -/
abbrev ReachableAround (r : GameRoom) (src : Vec2Int) (maxDepth : Int32) (again : Vec2Int) :
    Vec2Int → Prop :=
  LinkedSearch.Around (Steps r src maxDepth) again src

/-- As a substitute for `dest` the cell `a` is preferred to `b`: it is nearer to `dest`, or as near
and nearer to `src`, or that too and it comes first in the map of costs. -/
def Beats (src dest a b : Vec2Int) : Prop :=
  dest.distance a < dest.distance b ∨ dest.distance a = dest.distance b ∧
    ((a - src).manhattan < (b - src).manhattan ∨
      (a - src).manhattan = (b - src).manhattan ∧ compare a b = .lt)

/-- `dest.antipode` can be entered, and the substitute preferred to all others lies beyond it. -/
def Trapped (r : GameRoom) (src dest : Vec2Int) : Prop :=
  r.canGo dest.antipode = true ∧
    ∃ d, Reachable r src 10 d ∧ ¬ ReachableAround r src 10 dest.antipode d ∧
      ∀ c, Reachable r src 10 c → c ≠ d → Beats src dest d c

section

variable {Q : PriorityQueue PQNode PQNode.cost} {r : GameRoom} {src dest again : Vec2Int}
  {maxDepth : Int32} {st : SearchState} {found : Bool}

/-! ## The two loops -/

/-- The walk back ends where following the links comes to a cell that is its own parent. -/
theorem walk_terminates_iff (path : List Vec2Int) {c : Vec2Int} :
    Loop.Terminates (walkBody st.parent) (path, c) ↔ Settles st.link c := by
  have hstop : ∀ {path c}, st.link c = c → walkBody st.parent (path, c) = .inr (path ++ [c]) :=
    fun h => if_pos h.symm
  have hgo : ∀ {path c}, st.link c ≠ c →
      walkBody st.parent (path, c) = .inl (path ++ [c], st.link c) := fun h => if_neg h.symm
  constructor
  · rintro ⟨walk, n, hn⟩
    induction n generalizing path c with
    | zero => cases hn
    | succ n ih =>
      by_cases hself : st.link c = c
      · exact .of_fixed hself
      · rw [Loop.run_succ_of_inl (hgo hself)] at hn
        exact settles_apply_iff.1 (ih _ hn)
  · rintro ⟨n, hn⟩
    induction n generalizing path c with
    | zero => exact ⟨_, Loop.returns_of_inr (hstop hn)⟩
    | succ n ih =>
      by_cases hself : st.link c = c
      · exact ⟨_, Loop.returns_of_inr (hstop hself)⟩
      · obtain ⟨walk, hwalk⟩ := ih (path ++ [c]) hn
        exact ⟨walk, (Loop.returns_iff_of_inl (hgo hself)).2 hwalk⟩

/-- `FindPath` ends when `dest` is too far or when both its loops end. -/
theorem findPath_isSome_iff :
    (∃ fuel, (findPath Q r src dest fuel maxDepth).isSome) ↔ maxDepth ≤ src.distance dest ∨
      ∃ found st, Loop.Returns (searchBody Q r src dest maxDepth) (searchStart Q src dest)
        (found, st) ∧ Settles st.link (destination src dest found st) := by
  by_cases hfar : maxDepth ≤ src.distance dest
  · refine iff_of_true ⟨0, ?_⟩ (.inl hfar)
    rw [findPath, if_pos hfar]
    rfl
  · simp only [or_iff_right hfar, findPath, if_neg hfar, ← walk_terminates_iff []]
    constructor
    · rintro ⟨fuel, h⟩
      obtain ⟨path, h⟩ := Option.isSome_iff_exists.1 h
      simp only [Option.bind_eq_bind, Option.bind_eq_some_iff] at h
      obtain ⟨⟨found, st⟩, hs, walk, hw, -⟩ := h
      exact ⟨found, st, ⟨fuel, hs⟩, walk, fuel, hw⟩
    · rintro ⟨found, st, ⟨m, hs⟩, walk, n, hw⟩
      refine ⟨m + n, ?_⟩
      rw [Loop.run_mono (Nat.le_add_right m n) hs]
      simp only [Option.bind_eq_bind, Option.bind_some]
      rw [Loop.run_mono (Nat.le_add_left n m) hw]
      rfl

/-! ## Where the search goes -/

theorem Tilemap.Inside.nonneg {m : Tilemap} {c : Vec2Int} (h : m.Inside c) : c.Nonneg := by
  obtain ⟨hx, -, hy, -⟩ := h
  rw [Int32.le_iff_toInt_le, Int32.toInt_zero] at hx hy
  exact ⟨hx, hy⟩

theorem inside_of_inReach {c : Vec2Int} (h : inReach r src maxDepth c = true) :
    r.tilemap.Inside c := by
  simp only [inReach, Bool.and_eq_true] at h
  exact (GameRoom.canGo_iff.1 h.1).1.inside

/-- A step onto the map changes one coordinate by one, without wrapping around. -/
theorem toInt_add_of_inside {x d size : Int32} (hd : d.toInt.natAbs ≤ 1) (h : 0 ≤ x + d)
    (hsize : x + d < size) : (x + d).toInt = x.toInt + d.toInt := by
  have h₁ := x.le_toInt
  have h₂ := x.toInt_lt
  have h₃ := size.toInt_lt
  rw [Int32.le_iff_toInt_le, Int32.toInt_zero] at h
  rw [Int32.lt_iff_toInt_lt] at hsize
  rw [Int32.toInt_add] at h hsize ⊢
  rcases Int.lt_trichotomy (x.toInt + d.toInt) (2 ^ 31) with hlt | heq | hgt
  · rcases lt_or_ge (x.toInt + d.toInt) (-2 ^ 31) with hlow | hge
    · have heq : x.toInt + d.toInt = -2 ^ 31 - 1 := by omega
      rw [heq] at hsize
      have hmax : (-2 ^ 31 - 1 : ℤ).bmod (2 ^ 32) = 2 ^ 31 - 1 := by decide
      omega
    · exact Int.bmod_eq_of_le (by omega) (by omega)
  · rw [heq] at h
    exact absurd h (by decide)
  · omega

theorem gap_of_steps {a b : Vec2Int} (h : Steps r src maxDepth a b) : a.gap b = 1 := by
  obtain ⟨hx, hxs, hy, hys⟩ := inside_of_inReach h.2
  obtain ⟨⟨dir, hdir, rfl⟩, -⟩ := h
  have hone : ∀ dir ∈ front, dir.y.toInt.natAbs + dir.x.toInt.natAbs = 1 := by decide
  have hlen := hone dir hdir
  have hx' : (a + dir).x.toInt = a.x.toInt + dir.x.toInt :=
    toInt_add_of_inside (by omega) hx hxs
  have hy' : (a + dir).y.toInt = a.y.toInt + dir.y.toInt :=
    toInt_add_of_inside (by omega) hy hys
  rw [Vec2Int.gap, hx', hy']
  omega

/-- Nothing that is reached is far from `src`, although the check of the distance wraps around. -/
theorem gap_lt_of_reachable {c : Vec2Int} (h : Reachable r src 10 c) : src.gap c < 10 := by
  induction h with
  | refl =>
    rw [Vec2Int.gap_eq_zero.2 rfl]
    decide
  | @tail a b _ hab ih =>
    have hgap := Vec2Int.gap_triangle src a b
    rw [gap_of_steps hab] at hgap
    have hreach := hab.2
    simp only [inReach, Bool.and_eq_true, decide_eq_true_eq] at hreach
    have hlt := Int32.lt_iff_toInt_lt.1 hreach.2
    rw [Vec2Int.toInt_distance_of_gap_lt (by omega)] at hlt
    have h10 : (10 : Int32).toInt = 10 := by decide
    omega

theorem near_of_reachable (hsrc : r.tilemap.Inside src) {c : Vec2Int}
    (h : Reachable r src 10 c) : r.tilemap.Inside c ∧ src.gap c < 10 := by
  refine ⟨?_, gap_lt_of_reachable h⟩
  rcases h.cases_tail with heq | ⟨_, -, hlast⟩
  · rwa [heq]
  · exact inside_of_inReach hlast.2

/-- A cell of the map has its antipode outside. -/
theorem not_inside_antipode {m : Tilemap} {c : Vec2Int} (h : m.Inside c) :
    ¬ m.Inside c.antipode := by
  intro hanti
  have hx := hanti.nonneg.1
  have hc := h.nonneg.1
  have hlt := c.x.toInt_lt
  have hx' : c.antipode.x = c.x + Int32.minValue := rfl
  rw [hx', Int32.toInt_add, Int32.toInt_minValue, Int.bmod_eq_of_le (by omega) (by omega)] at hx
  omega

/-! ## Where `dest.antipode` is not entered -/

/-- Of the cells of cost 0 only `dest` is entered. -/
theorem onlyZero_dest
    (h : ¬ (r.canGo dest.antipode = true ∧ Reachable r src maxDepth dest.antipode)) :
    OnlyZero r src dest maxDepth dest := by
  intro a b ha hab
  rw [Vec2Int.distance_eq_zero]
  refine or_iff_left fun heq => h ?_
  rw [← heq]
  have hreach := hab.2
  simp only [inReach, Bool.and_eq_true] at hreach
  exact ⟨hreach.1, ha.tail hab⟩

/-- **The walk back ends** if `dest` is the only cell of cost 0 that is entered. -/
theorem settles_destination (hagain : OnlyZero r src dest maxDepth dest)
    (h : Loop.Returns (searchBody Q r src dest maxDepth) (searchStart Q src dest) (found, st)) :
    Settles st.link (destination src dest found st) := by
  have hmem : destination src dest found st ∈ st.best := by
    obtain ⟨hrooted, hfound⟩ := rooted_of_returns h
    exact hrooted.destination_mem hfound
  refine Loop.Returns.of_invariant
    (P := fun st => st.Sound r src dest maxDepth ∧
      st.linked.Treelike (Steps r src maxDepth) dest src)
    (Q := fun res => ∀ c ∈ res.2.best, Settles res.2.link c) ?_ ?_
    ⟨sound_searchStart, treelike_searchStart⟩ h _ hmem
  · rintro st st' ⟨hst, htree⟩ hb
    obtain ⟨pos, hne, -, hexp, hst'⟩ := expands_of_searchBody hagain hst hb
    exact ⟨hst', htree.expands hst.explored hexp hne⟩
  · rintro st ⟨found, st'⟩ ⟨hst, htree⟩ hb c hc
    obtain ⟨hbest, hparent, -⟩ := searchBody_eq_inr hst hb
    have hlink : st'.link = st.link := by
      funext c
      rw [SearchState.link, hparent, SearchState.link]
    have hseen : c ∈ st.best := hbest ▸ hc
    rw [hlink]
    exact htree.settles c hseen

end

/-! ## The substitute for `dest` -/

section Substitute

variable {src dest : Vec2Int}

theorem Beats.trans {a b c : Vec2Int} (h₁ : Beats src dest a b) (h₂ : Beats src dest b c) :
    Beats src dest a c := by
  simp only [Beats, Int32.lt_iff_toInt_lt, ← Int32.toInt_inj] at *
  rcases h₁ with h₁ | ⟨h₁, h₁'⟩
  · exact .inl (by omega)
  · rcases h₂ with h₂ | ⟨h₂, h₂'⟩
    · exact .inl (by omega)
    · refine .inr ⟨h₁.trans h₂, ?_⟩
      rcases h₁' with h₁' | ⟨h₁', hab⟩
      · exact .inl (by omega)
      · rcases h₂' with h₂' | ⟨h₂', hbc⟩
        · exact .inl (by omega)
        · exact .inr ⟨h₁'.trans h₂', TransCmp.lt_trans hab hbc⟩

theorem Beats.irrefl (a : Vec2Int) : ¬ Beats src dest a a := by
  have hself : compare a a = .eq := ReflCmp.compare_self
  rintro (h | ⟨-, h | ⟨-, h⟩⟩)
  · exact Int32.lt_irrefl h
  · exact Int32.lt_irrefl h
  · rw [hself] at h
    cases h

/-- Where the `float` is exact, an entry of the loop keeps the one of two cells that is preferred,
if they come in the order of the map. -/
theorem closest_eq (src : Vec2Int) {a b : Vec2Int} (hab : compare a b = .lt)
    (hb : Binary32.ofInt (dest.distance b).toInt = (dest.distance b).toInt) :
    ∃ e, closest src (a, (dest.distance a).toInt) (b, dest.distance b) =
        (e, (dest.distance e).toInt) ∧
      (e = a ∧ Beats src dest a b ∨ e = b ∧ Beats src dest b a) := by
  simp only [closest, hb, Beats, Int32.toInt_inj, ← Int32.lt_iff_toInt_lt, Vec2Int.manhattan,
    Vec2Int.sub_def]
  split
  · rename_i heq
    split
    · rename_i hlt
      exact ⟨b, by rw [heq], .inr ⟨rfl, .inr ⟨heq.symm, .inl hlt⟩⟩⟩
    · rename_i hnlt
      refine ⟨a, rfl, .inl ⟨rfl, .inr ⟨heq, ?_⟩⟩⟩
      rcases Int32.lt_or_eq_of_le (Int32.not_lt.1 hnlt) with hlt | hdist
      · exact .inl hlt
      · exact .inr ⟨hdist, hab⟩
  · rename_i hne
    split
    · rename_i hlt
      exact ⟨b, rfl, .inr ⟨rfl, .inl hlt⟩⟩
    · rename_i hnlt
      have hlt := (Int32.lt_or_eq_of_le (Int32.not_lt.1 hnlt)).resolve_right hne
      exact ⟨a, rfl, .inl ⟨rfl, .inl hlt⟩⟩

/-- **The loop keeps the cell that is preferred to all others.** -/
theorem foldl_closest_beats (src : Vec2Int) {cells : List Vec2Int} {a : Vec2Int}
    (hsorted : (a :: cells).Pairwise fun b c => compare b c = .lt)
    (hexact : ∀ c ∈ cells, Binary32.ofInt (dest.distance c).toInt = (dest.distance c).toInt) :
    ∃ d ∈ a :: cells, ((cells.map fun c => (c, dest.distance c)).foldl (closest src)
        (a, (dest.distance a).toInt)).1 = d ∧ ∀ c ∈ a :: cells, c ≠ d → Beats src dest d c := by
  induction cells generalizing a with
  | nil =>
    refine ⟨a, List.mem_singleton.2 rfl, rfl, fun c hc hne => ?_⟩
    exact absurd (List.mem_singleton.1 hc) hne
  | cons b cells ih =>
    rw [List.pairwise_cons, List.pairwise_cons] at hsorted
    obtain ⟨ha, hb, hcells⟩ := hsorted
    obtain ⟨e, he, hcase⟩ := closest_eq src (ha b List.mem_cons_self)
      (hexact b List.mem_cons_self)
    have hsorted : (e :: cells).Pairwise fun b c => compare b c = .lt := by
      refine List.pairwise_cons.2 ⟨fun c hc => ?_, hcells⟩
      rcases hcase with ⟨rfl, -⟩ | ⟨rfl, -⟩
      · exact ha c (List.mem_cons_of_mem _ hc)
      · exact hb c hc
    obtain ⟨d, hd, hfold, hbeats⟩ := ih hsorted fun c hc => hexact c (List.mem_cons_of_mem _ hc)
    -- what `e` is preferred to, `d` is preferred to as well
    have hother : ∀ c, Beats src dest e c → Beats src dest d c := by
      intro c hc
      by_cases hed : e = d
      · exact hed ▸ hc
      · exact (hbeats e List.mem_cons_self hed).trans hc
    rw [List.map_cons, List.foldl_cons, he]
    rcases hcase with ⟨rfl, hab⟩ | ⟨rfl, hba⟩
    · refine ⟨d, ?_, hfold, fun c hc hne => ?_⟩
      · exact List.mem_cons.2 ((List.mem_cons.1 hd).imp_right (List.mem_cons_of_mem _))
      · rcases List.mem_cons.1 hc with rfl | hc
        · exact hbeats c List.mem_cons_self hne
        · rcases List.mem_cons.1 hc with rfl | hc
          · exact hother c hab
          · exact hbeats c (List.mem_cons_of_mem _ hc) hne
    · refine ⟨d, List.mem_cons_of_mem _ hd, hfold, fun c hc hne => ?_⟩
      rcases List.mem_cons.1 hc with rfl | hc
      · exact hother c hba
      · exact hbeats c hc hne

/-- The substitute is the cell with a cost that is preferred to all others. -/
theorem destination_beats {st : SearchState} (hst : st.Costed dest) (hsrc : src ∈ st.best)
    (hexact : ∀ c ∈ st.best,
      Binary32.ofInt (dest.distance c).toInt = (dest.distance c).toInt) :
    destination src dest false st ∈ st.best ∧ ∀ c ∈ st.best,
      c ≠ destination src dest false st → Beats src dest (destination src dest false st) c := by
  have hlist : st.best.toList = st.best.keys.map fun c => (c, dest.distance c) := by
    rw [← ExtTreeMap.map_fst_toList_eq_keys, List.map_map]
    refine (List.map_id _).symm.trans (List.map_congr_left ?_)
    rintro ⟨c, cost⟩ hitem
    rw [ExtTreeMap.mem_toList_iff_getElem?_eq_some] at hitem
    have hcost := hst.best_eq c (ExtTreeMap.mem_iff_isSome_getElem?.2 (by rw [hitem]; rfl))
    rw [ExtTreeMap.getD_eq_getD_getElem?, hitem, Option.getD_some] at hcost
    exact Prod.ext rfl hcost
  have hsorted : st.best.keys.Pairwise fun b c => compare b c = .lt := ExtTreeMap.ordered_keys
  have hmem : ∀ c, c ∈ st.best ↔ c ∈ st.best.keys := fun c => ExtTreeMap.mem_keys.symm
  have hdest : destination src dest false st =
      (st.best.toList.foldl (closest src) (dest, Binary32.fltMax)).1 := rfl
  simp only [hmem] at hsrc hexact ⊢
  rw [hdest, hlist]
  cases hkeys : st.best.keys with
  | nil =>
    rw [hkeys] at hsrc
    cases hsrc
  | cons a cells =>
    rw [hkeys] at hsorted hexact
    have ha := hexact a List.mem_cons_self
    have hscore := Binary32.ofInt_lt_fltMax (dest.distance a)
    -- every score is below `FLT_MAX`, so the first entry is taken
    have hfirst : closest src (dest, Binary32.fltMax) (a, dest.distance a) =
        (a, (dest.distance a).toInt) := by
      simp only [closest, if_neg hscore.ne', if_pos hscore]
      rw [ha]
    rw [List.map_cons, List.foldl_cons, hfirst]
    obtain ⟨d, hd, hfold, hbeats⟩ := foldl_closest_beats src hsorted
      fun c hc => hexact c (List.mem_cons_of_mem _ hc)
    rw [hfold]
    exact ⟨hd, hbeats⟩

end Substitute

/-! ## Where `dest.antipode` is entered -/

section Entered

variable {Q : PriorityQueue PQNode PQNode.cost} {r : GameRoom} {src dest : Vec2Int}
  {st st' : SearchState} {found : Bool} (hsrc : r.tilemap.Inside src)
  (hgo : r.canGo dest.antipode = true) (hreach : Reachable r src 10 dest.antipode)

include hsrc hreach

/-- `dest` itself is not in the map. -/
theorem ne_dest_of_reachable {c : Vec2Int} (hc : Reachable r src 10 c) : c ≠ dest := by
  rintro rfl
  exact not_inside_antipode (near_of_reachable hsrc hc).1 (near_of_reachable hsrc hreach).1

/-- The costs are negative, and the larger the nearer the cell is to `dest.antipode`. -/
theorem toInt_distance_of_reachable {c : Vec2Int} (hc : Reachable r src 10 c) :
    (dest.distance c).toInt = -(dest.antipode.gap c : ℤ) ∧ dest.antipode.gap c < 20 := by
  obtain ⟨hz, hgapz⟩ := near_of_reachable hsrc hreach
  obtain ⟨hc, hgapc⟩ := near_of_reachable hsrc hc
  have htri := Vec2Int.gap_triangle dest.antipode src c
  rw [Vec2Int.gap_comm dest.antipode src] at htri
  have heq := Vec2Int.toInt_distance_antipode hz.nonneg hc.nonneg (by omega)
  rw [Vec2Int.antipode_antipode] at heq
  exact ⟨heq, by omega⟩

/-- `dest.antipode` has the greatest cost. -/
theorem eq_antipode_of_le {c : Vec2Int} (hc : Reachable r src 10 c)
    (hle : 0 ≤ (dest.distance c).toInt) : c = dest.antipode := by
  have hcost := (toInt_distance_of_reachable hsrc hreach hc).1
  exact (Vec2Int.gap_eq_zero.1 (by omega)).symm

include hgo in
theorem inReach_antipode : inReach r src 10 dest.antipode = true := by
  obtain ⟨hz, hgap⟩ := near_of_reachable hsrc hreach
  have hdist := Vec2Int.toInt_distance_of_gap_lt (hgap.trans (by decide))
  have h10 : (10 : Int32).toInt = 10 := by decide
  rw [inReach, hgo, Bool.true_and, decide_eq_true_eq, Int32.lt_iff_toInt_lt]
  omega

theorem onlyZero_antipode : OnlyZero r src dest 10 dest.antipode := by
  intro a b ha hab
  rw [Vec2Int.distance_eq_zero]
  exact or_iff_right (ne_dest_of_reachable hsrc hreach (ha.tail hab))

include hgo in
/-- The search does not find `dest`. When it is over, it has seen what can be reached, and the
links have run in a circle since `dest.antipode` was taken. -/
theorem search_of_entered
    (h : Loop.Returns (searchBody Q r src dest 10) (searchStart Q src dest) (found, st)) :
    found = false ∧ st.Sound r src dest 10 ∧ st.pq = [] ∧
      (st.linked.Treelike (Steps r src 10) dest.antipode src ∨
        st.linked.Split (Steps r src 10) dest.antipode src) := by
  have hagain := onlyZero_antipode hsrc hreach
  have hback : ∀ b, Steps r src 10 dest.antipode b → Steps r src 10 b dest.antipode :=
    fun b hb => hb.symm (inReach_antipode hsrc hgo hreach)
  refine Loop.Returns.of_invariant
    (P := fun st => st.Sound r src dest 10 ∧
      (st.linked.Treelike (Steps r src 10) dest.antipode src ∨
        st.linked.Split (Steps r src 10) dest.antipode src))
    (Q := fun res => res.1 = false ∧ res.2.Sound r src dest 10 ∧ res.2.pq = [] ∧
      (res.2.linked.Treelike (Steps r src 10) dest.antipode src ∨
        res.2.linked.Split (Steps r src 10) dest.antipode src)) ?_ ?_
    ⟨sound_searchStart, .inl treelike_searchStart⟩ h
  · rintro st st' ⟨hst, hphase⟩ hb
    obtain ⟨pos, -, hleast, hexp, hst'⟩ := expands_of_searchBody hagain hst hb
    refine ⟨hst', ?_⟩
    rcases hphase with htree | hsplit
    · by_cases hpos : pos = dest.antipode
      · -- its cost is the greatest, so only this cell was pending
        subst hpos
        refine .inr (htree.split hst.explored hback (fun c hc => ?_) hexp)
        have hle := Int32.le_iff_toInt_le.1 (hleast c hc)
        rw [Vec2Int.distance_eq_zero.2 (.inr rfl), Int32.toInt_zero] at hle
        exact eq_antipode_of_le hsrc hreach
          (hst.explored.reachable c (hst.explored.pending_sub c hc)) hle
      · exact .inl (htree.expands hst.explored hexp hpos)
    · exact .inr (hsplit.expands not_steps_self hback hst.explored hexp)
  · rintro st ⟨found, st'⟩ ⟨hst, hphase⟩ hb
    obtain ⟨-, -, htrue, hfalse⟩ := searchBody_eq_inr hst hb
    cases found with
    | true =>
      exact absurd rfl (ne_dest_of_reachable hsrc hreach (hst.explored.reachable dest (htrue rfl)))
    | false =>
      obtain ⟨rfl, hnil⟩ := hfalse rfl
      exact ⟨rfl, hst, hnil, hphase⟩

include hgo in
/-- The substitute is the reachable cell preferred to all others, and the walk back from it ends if
and only if it can be reached without passing through `dest.antipode`. -/
theorem substitute_of_entered
    (h : Loop.Returns (searchBody Q r src dest 10) (searchStart Q src dest) (found, st)) :
    Reachable r src 10 (destination src dest found st) ∧
      (∀ c, Reachable r src 10 c → c ≠ destination src dest found st →
        Beats src dest (destination src dest found st) c) ∧
      (Settles st.link (destination src dest found st) ↔
        ReachableAround r src 10 dest.antipode (destination src dest found st)) := by
  obtain ⟨rfl, hst, hnil, hphase⟩ := search_of_entered hsrc hgo hreach h
  have hempty : ∀ c, c ∉ st.linked.pending := by
    rintro c ⟨node, hnode, -⟩
    rw [hnil] at hnode
    cases hnode
  have hseen : ∀ c, c ∈ st.best ↔ Reachable r src 10 c := fun c =>
    hst.explored.mem_seen_iff hempty
  have hexact : ∀ c ∈ st.best,
      Binary32.ofInt (dest.distance c).toInt = (dest.distance c).toInt := by
    intro c hc
    obtain ⟨hcost, hgap⟩ := toInt_distance_of_reachable hsrc hreach ((hseen c).1 hc)
    exact Binary32.ofInt_of_natAbs_lt (by omega)
  obtain ⟨hmem, hbeats⟩ := destination_beats hst.costed hst.explored.start_mem hexact
  refine ⟨(hseen _).1 hmem, fun c hc => hbeats c ((hseen c).2 hc), ?_⟩
  by_cases hd : destination src dest false st = dest.antipode
  · -- its cost is the greatest, so it is the only cell there is
    have hall : ∀ c ∈ st.best, c = dest.antipode := by
      intro c hc
      by_contra hne
      have hcost := (toInt_distance_of_reachable hsrc hreach ((hseen c).1 hc)).1
      have hgap : dest.antipode.gap c ≠ 0 := fun h0 => hne (Vec2Int.gap_eq_zero.1 h0).symm
      have hbeat := hbeats c hc (hd ▸ hne)
      rw [hd, Beats, Vec2Int.distance_eq_zero.2 (.inr rfl), Int32.lt_iff_toInt_lt,
        ← Int32.toInt_inj, Int32.toInt_zero] at hbeat
      rcases hbeat with hlt | ⟨heq, -⟩
      · omega
      · omega
    rw [hd] at hmem ⊢
    refine iff_of_true (.of_fixed (hall _ (hst.explored.link_mem _ hmem))) ?_
    rcases hphase with htree | hsplit
    · exact htree.around _ hmem
    · exact hsplit.around_again
  · exact LinkedSearch.settles_iff_around hst.explored hphase hempty hmem hd

end Entered

/-! ## The result -/

/-- **`FindPath` ends exactly where it is not trapped**: the search always does, and the walk back
unless the best cell it reached lies beyond `dest.antipode`. -/
theorem findPath_terminates_iff (Q : PriorityQueue PQNode PQNode.cost) (r : GameRoom)
    (src dest : Vec2Int) (hsrc : r.tilemap.Inside src) :
    (∃ fuel, (findPath Q r src dest fuel).isSome) ↔ ¬ Trapped r src dest := by
  rw [findPath_isSome_iff]
  by_cases h : r.canGo dest.antipode = true ∧ Reachable r src 10 dest.antipode
  · obtain ⟨hgo, hreach⟩ := h
    have hnear : ¬ 10 ≤ src.distance dest := by
      have hcost := (toInt_distance_of_reachable hsrc hreach .refl).1
      have h10 : (10 : Int32).toInt = 10 := by decide
      rw [Vec2Int.distance_comm, Int32.le_iff_toInt_le]
      omega
    rw [or_iff_right hnear]
    constructor
    · rintro ⟨found, st, hs, hset⟩ ⟨-, d, hd, hbeyond, hbeats⟩
      obtain ⟨hsub, hbest, hiff⟩ := substitute_of_entered hsrc hgo hreach hs
      -- two cells preferred to all others are the same
      have heq : d = destination src dest found st := by
        by_contra hne
        exact Beats.irrefl _ ((hbeats _ hsub (Ne.symm hne)).trans (hbest d hd hne))
      exact hbeyond (heq ▸ hiff.1 hset)
    · intro htrapped
      obtain ⟨⟨found, st⟩, hs⟩ := search_terminates Q (onlyZero_antipode hsrc hreach)
      obtain ⟨hsub, hbest, hiff⟩ := substitute_of_entered hsrc hgo hreach hs
      refine ⟨found, st, hs, hiff.2 ?_⟩
      by_contra hbeyond
      exact htrapped ⟨hgo, _, hsub, hbeyond, hbest⟩
  · refine iff_of_true (.inr ?_) ?_
    · obtain ⟨⟨found, st⟩, hs⟩ := search_terminates Q (onlyZero_dest h)
      exact ⟨found, st, hs, settles_destination (onlyZero_dest h) hs⟩
    · rintro ⟨hgo, d, hd, hbeyond, -⟩
      exact hbeyond (hd.around fun hreach => h ⟨hgo, hreach⟩)

/-! ## A corridor -/

/-- Four cells in a row, with a monster in the first and a player in `cell`. -/
def corridorRoom (cell : Vec2Int) : GameRoom :=
  (({ tilemap := ⟨⟨4, 1⟩, [[{}, {}, {}, {}]]⟩ } : GameRoom).addMonster
    { createMonster 1 with info := (createMonster 1).info.setCellPos ⟨0, 0⟩ }).addPlayer
    { createPlayer 2 0 with info := (createPlayer 2 0).info.setCellPos cell }

theorem findPath_terminates_iff_corridor :
    (∃ fuel, (findPath (.selection PQNode.cost) (corridorRoom (Vec2Int.antipode ⟨2, 0⟩)) ⟨0, 0⟩
      (Vec2Int.antipode ⟨2, 0⟩) fuel).isSome) ∧
    ¬ Trapped (corridorRoom (Vec2Int.antipode ⟨2, 0⟩)) ⟨0, 0⟩ (Vec2Int.antipode ⟨2, 0⟩) := by
  have hends : ∃ fuel, (findPath (.selection PQNode.cost)
      (corridorRoom (Vec2Int.antipode ⟨2, 0⟩)) ⟨0, 0⟩ (Vec2Int.antipode ⟨2, 0⟩) fuel).isSome :=
    ⟨10, by decide +kernel⟩
  have hsrc : (corridorRoom (Vec2Int.antipode ⟨2, 0⟩)).tilemap.Inside ⟨0, 0⟩ := by
    refine ⟨?_, ?_, ?_, ?_⟩ <;> decide
  exact ⟨hends, (findPath_terminates_iff _ _ _ _ hsrc).1 hends⟩

/-- The search from the first cell of the corridor, with `dest` the antipode of the second: the
second cell and the third are each other's parent, and the walk back starts from the fourth. -/
theorem search_corridor :
    (Loop.run (searchBody (.selection PQNode.cost) (corridorRoom (Vec2Int.antipode ⟨1, 0⟩)) ⟨0, 0⟩
        (Vec2Int.antipode ⟨1, 0⟩) 10) 6
      (searchStart (.selection PQNode.cost) ⟨0, 0⟩ (Vec2Int.antipode ⟨1, 0⟩))).map (fun res =>
        (destination ⟨0, 0⟩ (Vec2Int.antipode ⟨1, 0⟩) res.1 res.2, res.2.link ⟨3, 0⟩,
          res.2.link ⟨2, 0⟩, res.2.link ⟨1, 0⟩)) =
      some (⟨3, 0⟩, ⟨2, 0⟩, ⟨1, 0⟩, ⟨2, 0⟩) := by
  decide +kernel

/-- **`FindPath` need not end**: from the first cell of the corridor with a player in the antipode
of the second it does not. -/
theorem not_findPath_terminates :
    (corridorRoom (Vec2Int.antipode ⟨1, 0⟩)).tilemap.Inside ⟨0, 0⟩ ∧
      ¬ ∃ fuel, (findPath (.selection PQNode.cost) (corridorRoom (Vec2Int.antipode ⟨1, 0⟩)) ⟨0, 0⟩
        (Vec2Int.antipode ⟨1, 0⟩) fuel).isSome := by
  refine ⟨?_, ?_⟩
  · refine ⟨?_, ?_, ?_, ?_⟩ <;> decide
  · rw [findPath_isSome_iff, or_iff_right (by decide)]
    rintro ⟨found, st, hs, hset⟩
    obtain ⟨⟨found', st'⟩, hrun, heq⟩ := Option.map_eq_some_iff.1 search_corridor
    obtain ⟨rfl, rfl⟩ := Prod.mk.inj (hs.unique ⟨6, hrun⟩)
    simp only [Prod.mk.injEq] at heq
    obtain ⟨hdest, h₃, h₂, h₁⟩ := heq
    rw [hdest] at hset
    refine not_settles_of_invariant
      (P := fun c => c = ⟨3, 0⟩ ∨ c = ⟨2, 0⟩ ∨ c = (⟨1, 0⟩ : Vec2Int)) ?_ (.inl rfl) hset
    rintro c (rfl | rfl | rfl)
    · rw [h₃]
      exact ⟨.inr (.inl rfl), by decide⟩
    · rw [h₂]
      exact ⟨.inr (.inr rfl), by decide⟩
    · rw [h₁]
      exact ⟨.inr (.inl rfl), by decide⟩

end Zelda.Server
