import Zelda.Foundations.GreedyWays
import Zelda.Server.Plans
import Zelda.Server.Updates

/-!
# The pursuit of a player

What `FindPath` returns begins with the first step of a plan. In a room with one monster and one
player the monster's updates follow such steps, each plan made where the step before has led.

Main result: `neverReturns_of_run`. In a run in which no cell that the monster is on can be come back
to by planning anew, the monster never returns to a cell it has left.
-/

namespace Zelda.Server

open Protocol Relation
open Std (ExtTreeMap)
open scoped Int32Order

variable {P : Platform} {fuel : ℕ} {now : UInt64} {id pid : ObjectId} {w w' : World}
  {r r' : GameRoom} {Q : PriorityQueue PQNode PQNode.cost} {m : Tilemap}
  {p c c' d a b x : Vec2Int}

/-! ## One monster and one player -/

/-- No monster but `id` is in the room, and no player but `pid`, who is on `p`. -/
structure Duel (m : Tilemap) (id pid : ObjectId) (p : Vec2Int) (r : GameRoom) : Prop where
  tilemap : r.tilemap = m
  monster : ∀ k c, r.cells (.monster k) = some c → k = id
  player : ∀ k c, r.cells (.player k) = some c → k = pid ∧ c = p

/-- The monster is on `c`, and the player is there. -/
structure Facing (m : Tilemap) (id pid : ObjectId) (p c : Vec2Int) (r : GameRoom) : Prop
    extends Duel m id pid p r where
  own : r.cells (.monster id) = some c
  present : r.cells (.player pid) = some p

namespace Facing

theorem canGo_iff (h : Facing m id pid p c r) :
    r.canGo x = true ↔ m.Walkable x ∧ x ≠ p ∧ x ≠ c := by
  rw [GameRoom.canGo_iff_cells, GameRoom.Standable, h.tilemap]
  constructor
  · rintro ⟨⟨-, hwalk⟩, hfree⟩
    refine ⟨hwalk, ?_, ?_⟩
    · rintro rfl
      exact hfree _ h.present
    · rintro rfl
      exact hfree _ h.own
  · rintro ⟨hwalk, hp, hc⟩
    refine ⟨⟨hwalk.inside, hwalk⟩, fun ref hx => ?_⟩
    cases ref with
    | player k => exact hp (h.player k x hx).2
    | monster k =>
      obtain rfl := h.monster k x hx
      rw [h.own] at hx
      exact hc (Option.some.inj hx).symm

theorem steps_of_planStep (h : Facing m id pid p c r) (hstep : PlanStep m p c a b) :
    Steps r c 10 a b := by
  obtain ⟨hdir, hwalk, hp, hc, hgap⟩ := hstep
  refine ⟨hdir, ?_⟩
  have h10 : (10 : Int32).toInt = 10 := by decide
  rw [inReach, h.canGo_iff.2 ⟨hwalk, hp, hc⟩, Bool.true_and, decide_eq_true_eq,
    Int32.lt_iff_toInt_lt, Vec2Int.toInt_distance_of_gap_lt (by omega)]
  omega

theorem planStep_of_steps (h : Facing m id pid p c r) (ha : Reachable r c 10 a)
    (hstep : Steps r c 10 a b) : PlanStep m p c a b := by
  have hgap := gap_lt_of_reachable (ha.tail hstep)
  obtain ⟨hdir, hreach⟩ := hstep
  rw [inReach, Bool.and_eq_true, h.canGo_iff] at hreach
  exact ⟨hdir, hreach.1.1, hreach.1.2.1, hreach.1.2.2, hgap⟩

theorem reachable_iff (h : Facing m id pid p c r) :
    Reachable r c 10 x ↔ ReflTransGen (PlanStep m p c) c x := by
  constructor
  · intro hx
    induction hx with
    | refl => exact .refl
    | tail ha hstep ih => exact ih.tail (h.planStep_of_steps ha hstep)
  · exact ReflTransGen.mono (fun _ _ => h.steps_of_planStep) _ _

/-! ## The search in such a room -/

/-- All that is searched is near the player. -/
theorem toInt_distance (hnear : c.gap p ≤ 10) (hx : c.gap x < 10) :
    (p.distance x).toInt = p.gap x ∧ p.gap x ≤ 20 := by
  have htri := Vec2Int.gap_triangle p c x
  rw [Vec2Int.gap_comm p c] at htri
  exact ⟨Vec2Int.toInt_distance_of_gap_lt (by omega), by omega⟩

theorem lawful (hnear : c.gap p ≤ 10) : (greedySearch r c p 10).Lawful := by
  have hgap : ∀ x, (greedySearch r c p 10).Reachable x → (p.distance x).toInt = p.gap x := by
    intro x hx
    rw [BestFirst.Reachable, steps_greedySearch] at hx
    exact (toInt_distance hnear (gap_lt_of_reachable hx)).1
  have hcost : ∀ x, (greedySearch r c p 10).cost x = p.distance x := fun _ => rfl
  refine ⟨nodup_neighbours, not_mem_neighbours, Set.toFinite _, fun a b ha hab => ?_,
    fun hp x hx hle => ?_, fun _ _ => Binary32.ofInt_lt_fltMax _⟩
  · rw [hcost, ← Int32.toInt_inj, hgap b (ha.tail hab), Int32.toInt_zero, Nat.cast_eq_zero,
      Vec2Int.gap_eq_zero]
    exact eq_comm
  · have hself : p.gap p = 0 := Vec2Int.gap_eq_zero.2 rfl
    have hle : p.distance x ≤ p.distance p := hle
    have hzero : p.gap x = 0 := by
      rw [Int32.le_iff_toInt_le, hgap x hx, hgap p hp] at hle
      omega
    exact (Vec2Int.gap_eq_zero.1 hzero).symm

/-- The goal of the search is the goal of the plan. -/
theorem planGoal (h : Facing m id pid p c r) (hnear : c.gap p ≤ 10) (hne : c ≠ p)
    (hd : (greedySearch r c p 10).IsGoal d) : PlanGoal m p c d := by
  have hreach : ∀ x, (greedySearch r c p 10).Reachable x ↔ ReflTransGen (PlanStep m p c) c x := by
    intro x
    rw [BestFirst.Reachable, steps_greedySearch]
    exact h.reachable_iff
  have hnot : ¬ (greedySearch r c p 10).Reachable p := by
    intro hp
    rcases ((hreach p).1 hp).cases_tail with heq | ⟨a, -, hstep⟩
    · exact hne heq.symm
    · exact hstep.2.2.1 rfl
  have hgap : ∀ x, (greedySearch r c p 10).Reachable x →
      (greedySearch r c p 10).score ((greedySearch r c p 10).cost x) = p.gap x ∧
        ((greedySearch r c p 10).detour x).toInt = c.gap x := by
    intro x hx
    rw [BestFirst.Reachable, steps_greedySearch] at hx
    have hlt := gap_lt_of_reachable hx
    obtain ⟨hdist, hle⟩ := toInt_distance hnear hlt
    constructor
    · show Binary32.ofInt (p.distance x).toInt = p.gap x
      rw [hdist, Binary32.ofInt_of_natAbs_lt (by omega)]
    · have hdetour : (greedySearch r c p 10).detour x = x.distance c := Int32.add_comm _ _
      rw [hdetour, Vec2Int.distance_comm, Vec2Int.toInt_distance_of_gap_lt (by omega)]
  refine ⟨(hreach d).1 hd.reachable, fun x hx => ?_⟩
  obtain ⟨hsd, hdd⟩ := hgap d hd.reachable
  obtain ⟨hsx, hdx⟩ := hgap x ((hreach x).2 hx)
  have hgood := hd.precedes hnot x ((hreach x).2 hx)
  rwa [BestFirst.Precedes, hsd, hsx, Int32.lt_iff_toInt_lt, ← Int32.toInt_inj, hdd, hdx,
    Nat.cast_lt, Nat.cast_inj, Nat.cast_lt, Nat.cast_inj] at hgood

/-- The costs that a bound allows. -/
theorem distance_le_iff (hnear : c.gap p ≤ 10) (hx : c.gap x < 10) (bound : ℕ) :
    p.distance x ≤ Int32.ofNat (min bound 20) ↔ p.gap x ≤ bound := by
  obtain ⟨hdist, hle⟩ := toInt_distance hnear hx
  rw [Int32.le_iff_toInt_le, hdist, Int32.toInt_ofNat_of_lt (by omega)]
  omega

/-- **What `FindPath` returns begins with the first step of a plan.** -/
theorem firstStep (h : Facing m id pid p c r) (hnear : c.gap p ≤ 10) {rest : List Vec2Int}
    (hpath : findPath Q r c p fuel = some (some (c :: c' :: rest))) : FirstStep m p c c' := by
  have hB : (greedySearch r c p 10).Lawful := lawful hnear
  obtain ⟨st, d, hres⟩ := BestFirst.result_of_run hB (run_of_findPath hpath)
  obtain ⟨hway, hnodup, hseen⟩ := hres.isWay hB
  rw [steps_greedySearch] at hway
  obtain ⟨hfirst, hchain⟩ := List.isChain_cons_cons.1 hway.isChain
  obtain ⟨hnew, hnodup⟩ := List.nodup_cons.1 hnodup
  have hlast : (c' :: rest).getLast? = some d := by
    rw [← List.getLast?_cons_cons]
    exact hway.getLast?_eq
  have hne : c ≠ p := by
    rintro rfl
    rw [hres.isGoal.eq_dest .refl] at hlast
    exact hnew (List.mem_of_getLast? hlast)
  have hreach : ∀ x ∈ c :: c' :: rest, Reachable r c 10 x := by
    intro x hx
    have hx' := hres.sound.explored.reachable x (hseen x hx)
    rwa [steps_greedySearch] at hx'
  refine ⟨?_, h.planStep_of_steps .refl hfirst, d, h.planGoal hnear hne hres.isGoal,
    fun bound hwithin => ?_⟩
  · have hclose : ¬ (10 : Int32) ≤ c.distance p := by
      intro hfar
      rw [findPath_eq, if_pos hfar] at hpath
      cases hpath
    have h10 : (10 : Int32).toInt = 10 := by decide
    rw [Int32.not_le, Int32.lt_iff_toInt_lt, Vec2Int.toInt_distance_of_gap_lt (by omega)] at hclose
    omega
  · -- the search pays no more than some way to `d` has to
    have hbound : LinkedSearch.Within (greedySearch r c p 10).Steps
        (greedySearch r c p 10).cost (Int32.ofNat (min bound 20)) c d := by
      refine ReflTransGen.mono (fun a b hab => ?_) _ _ hwithin
      rw [steps_greedySearch]
      exact ⟨h.steps_of_planStep hab.1, (distance_le_iff hnear hab.1.2.2.2.2 bound).2 hab.2⟩
    have hlow : ∀ x ∈ c' :: rest, p.gap x ≤ bound := by
      intro x hx
      have hmem : x ∈ (c :: c' :: rest).reverse := List.mem_reverse.2 (List.mem_cons_of_mem _ hx)
      rcases hres.low hB hne hbound x hmem with rfl | hcost
      · exact absurd hx hnew
      · have hgap := gap_lt_of_reachable (hreach x (List.mem_cons_of_mem _ hx))
        exact (distance_le_iff hnear hgap bound).1 hcost
    refine ⟨hlow c' List.mem_cons_self, ?_⟩
    refine List.relationReflTransGen_of_exists_isChain_cons rest ?_ ?_
    · refine hchain.imp_of_mem_imp fun a b ha hb hab => ⟨?_, hlow b hb⟩
      exact h.planStep_of_steps (hreach a (List.mem_cons_of_mem _ ha)) hab
    · rw [List.getLast?_eq_some_getLast (List.cons_ne_nil _ _)] at hlast
      exact Option.some.inj hlast

end Facing

/-! ## The run -/

theorem Turn.duel (hd : Duel m id pid p r) (h : Turn Q fuel id r r') : Duel m id pid p r' := by
  cases h with
  | stood hstood =>
    refine ⟨hstood.tilemap.trans hd.tilemap, fun k c hc => ?_, fun k c hc => ?_⟩
    · rw [hstood.monster] at hc
      exact hd.monster k c hc
    · exact hd.player k c (hstood.player k c hc)
  | stepped _ _ _ _ htilemap hcells =>
    refine ⟨htilemap.trans hd.tilemap, fun k c hc => ?_, fun k c hc => ?_⟩
    · by_contra hne
      rw [hcells, Function.update_of_ne (by simpa using hne)] at hc
      exact hne (hd.monster k c hc)
    · rw [hcells, Function.update_of_ne (by simp)] at hc
      exact hd.player k c hc

/-- A pursuit under way, with the monster on `c`. -/
structure Chase (m : Tilemap) (id pid : ObjectId) (p : Vec2Int) (w : World) (c : Vec2Int) :
    Prop where
  registry : Registry w
  duel : Duel m id pid p w.room
  own : w.room.cells (.monster id) = some c
  near : c.gap p ≤ 10

/-- In its turn the monster stands or takes the first step of a plan. -/
theorem Chase.step (h : Chase m id pid p w c) (hok : updateMonster P fuel now id w = .ok w') :
    ∃ c', Chase m id pid p w' c' ∧ (c' = c ∨ FirstStep m p c c') := by
  have hturn := updateMonster_turn h.registry hok
  have hr := (updateMonster_edits h.registry hok).registry h.registry
  have hduel := hturn.duel h.duel
  cases hturn with
  | stood hstood => exact ⟨c, ⟨hr, hduel, (hstood.monster id).trans h.own, h.near⟩, .inl rfl⟩
  | @stepped c₁ dest next rest k hc hdest hpath hgo htilemap hcells =>
    obtain rfl : c = c₁ := Option.some.inj (h.own.symm.trans hc)
    obtain ⟨rfl, rfl⟩ := h.duel.player k dest hdest
    have hfacing : Facing m id k dest c w.room := ⟨h.duel, hc, hdest⟩
    have hfirst := hfacing.firstStep h.near hpath
    have hone := gap_of_steps (steps_of_findPath hpath)
    have htri := Vec2Int.gap_triangle next c dest
    have hnear := hfirst.near
    rw [Vec2Int.gap_comm next c] at htri
    refine ⟨next, ⟨hr, hduel, ?_, by omega⟩, .inr hfirst⟩
    rw [hcells, Function.update_self]

/-- In `N` updates of the monster the world goes through the states `w`. -/
def Pursues (P : Platform) (id : ObjectId) (N : ℕ) (w : ℕ → World) : Prop :=
  ∀ n < N, ∃ fuel now, updateMonster P fuel now id (w n) = .ok (w (n + 1))

theorem Chase.run {w : ℕ → World} {N i j : ℕ} (hrun : Pursues P id N w)
    (h : Chase m id pid p (w i) a) (hij : i ≤ j) (hj : j ≤ N) :
    ∃ b, Chase m id pid p (w j) b ∧ ReflTransGen (FirstStep m p) a b := by
  induction j, hij using Nat.le_induction with
  | base => exact ⟨a, h, .refl⟩
  | succ j _ ih =>
    obtain ⟨b, hb, hab⟩ := ih (by omega)
    obtain ⟨fuel, now, hok⟩ := hrun j (by omega)
    obtain ⟨b', hb', rfl | hstep⟩ := hb.step hok
    · exact ⟨b', hb', hab⟩
    · exact ⟨b', hb', hab.tail hstep⟩

/-- Until it is next to the player, the monster does not come back to a cell that it has left. -/
def NeverReturns (id : ObjectId) (p : Vec2Int) (N : ℕ) (w : ℕ → World) : Prop :=
  ∀ i j k a b, i < j → j < k → k ≤ N →
    (∀ n < k, ∀ c, (w n).room.cells (.monster id) = some c → c.gap p ≠ 1) →
    (w i).room.cells (.monster id) = some a → (w j).room.cells (.monster id) = some b →
    (w k).room.cells (.monster id) = some a → b = a

/-- **A monster never returns** to a cell it has left, if plans lead away from every cell that it
has been on. -/
theorem neverReturns_of_run (P : Platform) (m : Tilemap) (id pid : ObjectId) (p c₀ : Vec2Int)
    (N : ℕ) (w : ℕ → World) (hr : Registry (w 0)) (hduel : Duel m id pid p (w 0).room)
    (hc₀ : (w 0).room.cells (.monster id) = some c₀) (hnear : c₀.gap p < 10)
    (hrun : Pursues P id N w)
    (haway : ∀ n < N, ∀ c, (w n).room.cells (.monster id) = some c → LeadsAway m p c) :
    NeverReturns id p N w := by
  intro i j k a b hij hjk hk _ ha hb ha'
  have hstart : Chase m id pid p (w 0) c₀ := ⟨hr, hduel, hc₀, hnear.le⟩
  obtain ⟨a₁, hchase, -⟩ := hstart.run hrun (Nat.zero_le i) (by omega)
  obtain rfl : a₁ = a := Option.some.inj (hchase.own.symm.trans ha)
  obtain ⟨b₁, hchase', hout⟩ := hchase.run hrun hij.le (by omega)
  obtain rfl : b₁ = b := Option.some.inj (hchase'.own.symm.trans hb)
  obtain ⟨a₂, hchase'', hback⟩ := hchase'.run hrun hjk.le hk
  obtain rfl : a₂ = a₁ := Option.some.inj (hchase''.own.symm.trans ha')
  rcases reflTransGen_iff_eq_or_transGen.1 hout with heq | hcircle
  · exact heq
  · exact absurd (hcircle.trans_left hback) (haway i (by omega) a₂ ha)

/-! ## Two pursuits -/

theorem Duel.of_keys (htilemap : r.tilemap = m) (hmonsters : r.monsters.keys = [id])
    (hplayers : r.players.keys = [pid]) (hp : r.cells (.player pid) = some p) :
    Duel m id pid p r := by
  refine ⟨htilemap, fun k c hc => ?_, fun k c hc => ?_⟩
  · have hk : k ∈ r.monsters.keys := by
      rw [ExtTreeMap.mem_keys]
      by_contra hnot
      rw [GameRoom.cells_monster_eq_none.2 hnot] at hc
      cases hc
    rw [hmonsters] at hk
    exact List.mem_singleton.1 hk
  · obtain ⟨info, hinfo, -⟩ := GameRoom.cells_eq_some.1 hc
    have hk : k ∈ r.players.keys :=
      ExtTreeMap.mem_keys.2 (GameRoom.registered_player.1 (GameRoom.registered_of_info? hinfo))
    rw [hplayers] at hk
    obtain rfl := List.mem_singleton.1 hk
    rw [hp] at hc
    exact ⟨rfl, (Option.some.inj hc).symm⟩

/-- The states that the updates of monster 1 lead to, one update a second. -/
def turns (w : World) : ℕ → World
  | 0 => w
  | n + 1 => Result.world (updateMonster (.always .accepted) 50 (1000 * n.toUInt64) 1 (turns w n))

theorem pursues_turns {N : ℕ} (h : ∀ n < N, (updateMonster (.always .accepted) 50
    (1000 * n.toUInt64) 1 (turns w n)).isOk = true) :
    Pursues (.always .accepted) 1 N (turns w) := by
  intro n hn
  refine ⟨50, 1000 * n.toUInt64, ?_⟩
  have hok := h n hn
  rw [turns]
  generalize updateMonster (.always .accepted) 50 (1000 * n.toUInt64) 1 (turns w n) = res at hok
  cases res with
  | ok w' => rfl
  | error fault => cases hok

theorem walkable_nookMap (h : nookMap.Walkable x) : x = ⟨7, 8⟩ ∨ x = ⟨8, 8⟩ := by
  obtain ⟨hx, hxs, hy, hys⟩ := h.inside
  have hcols : nookMap.mapSize = ⟨10, 10⟩ := rfl
  rw [hcols, Int32.lt_iff_toInt_lt] at hxs hys
  rw [Int32.le_iff_toInt_le, Int32.toInt_zero] at hx hy
  have hten : (10 : Int32).toInt = 10 := by decide
  rw [hten] at hxs hys
  have htiles : ∀ i < 10, ∀ j < 10, nookMap.Walkable ⟨Int32.ofNat i, Int32.ofNat j⟩ →
      (⟨Int32.ofNat i, Int32.ofNat j⟩ : Vec2Int) = ⟨7, 8⟩ ∨
        (⟨Int32.ofNat i, Int32.ofNat j⟩ : Vec2Int) = ⟨8, 8⟩ := by decide +kernel
  have heq : ∀ u : Int32, 0 ≤ u.toInt → Int32.ofNat u.toInt.toNat = u := by
    intro u hu
    rw [← Int32.toInt_inj, Int32.toInt_ofNat_of_lt (by have := u.toInt_lt; omega)]
    omega
  have hcell : (⟨Int32.ofNat x.x.toInt.toNat, Int32.ofNat x.y.toInt.toNat⟩ : Vec2Int) = x :=
    Vec2Int.ext (heq x.x hx) (heq x.y hy)
  have hall := htiles x.x.toInt.toNat (by omega) x.y.toInt.toNat (by omega)
  rw [hcell] at hall
  exact hall h

/-- Between two cells there is only one way to go. -/
theorem firstStep_nookMap (hc : c = ⟨7, 8⟩ ∨ c = ⟨8, 8⟩) (h : FirstStep nookMap ⟨5, 5⟩ c c') :
    c = ⟨8, 8⟩ ∧ c' = ⟨7, 8⟩ := by
  obtain ⟨-, hwalk, -, hne, -⟩ := h.step
  rcases hc with rfl | rfl
  · -- from (7, 8) the plan leads nowhere else
    exfalso
    obtain rfl := (walkable_nookMap hwalk).resolve_left hne
    obtain ⟨d, hgoal, hway⟩ := h.plan
    have hwithin : LinkedSearch.Within (PlanStep nookMap ⟨5, 5⟩ ⟨7, 8⟩) (Vec2Int.gap ⟨5, 5⟩) 20
        ⟨7, 8⟩ d := by
      refine ReflTransGen.mono (fun a b hab => ⟨hab, ?_⟩) _ _ hgoal.reachable
      rcases walkable_nookMap hab.2.1 with rfl | rfl <;> decide
    have hd : d = ⟨8, 8⟩ := by
      rcases (hway 20 hwithin).2.cases_tail with heq | ⟨b, -, hlast, -⟩
      · exact heq
      · exact (walkable_nookMap hlast.2.1).resolve_left hlast.2.2.2.1
    have hleast := hgoal.least _ .refl
    rw [hd] at hleast
    exact absurd hleast (by decide)
  · exact ⟨rfl, (walkable_nookMap hwalk).resolve_right hne⟩

theorem leadsAway_nookMap (hc : c = ⟨7, 8⟩ ∨ c = ⟨8, 8⟩) : LeadsAway nookMap ⟨5, 5⟩ c := by
  have hmem : ∀ b, ReflTransGen (FirstStep nookMap ⟨5, 5⟩) c b → b = ⟨7, 8⟩ ∨ b = ⟨8, 8⟩ := by
    intro b hb
    rcases hb.cases_tail with rfl | ⟨a, -, hlast⟩
    · exact hc
    · exact walkable_nookMap hlast.step.2.1
  intro hcircle
  obtain ⟨b, hfirst, -⟩ := TransGen.head'_iff.1 hcircle
  obtain ⟨b', hto, hlast⟩ := TransGen.tail'_iff.1 hcircle
  obtain ⟨rfl, -⟩ := firstStep_nookMap hc hfirst
  exact absurd (firstStep_nookMap (hmem b' hto) hlast).2 (by decide)

theorem neverReturns_of_run_nookMap :
    NeverReturns 1 ⟨5, 5⟩ 3 (turns (afterEnter nookMap)) ∧
      (turns (afterEnter nookMap) 1).room.cells (.monster 1) = some ⟨7, 8⟩ := by
  have hr : Registry (afterEnter nookMap) := registry_afterEnter nookMap
  have hduel : Duel nookMap 1 2 ⟨5, 5⟩ (afterEnter nookMap).room :=
    .of_keys rfl (by decide +kernel) (by decide +kernel) (by decide +kernel)
  have hcells : ∀ n < 3, ((turns (afterEnter nookMap) n).room.cells (.monster 1)).all
      (fun c => c = ⟨7, 8⟩ ∨ c = ⟨8, 8⟩) = true := by decide +kernel
  have haway : ∀ n < 3, ∀ c, (turns (afterEnter nookMap) n).room.cells (.monster 1) = some c →
      LeadsAway nookMap ⟨5, 5⟩ c := by
    intro n hn c hc
    have hall := hcells n hn
    rw [hc] at hall
    exact leadsAway_nookMap (of_decide_eq_true hall)
  exact ⟨neverReturns_of_run (.always .accepted) nookMap 1 2 ⟨5, 5⟩ ⟨8, 8⟩ 3
    (turns (afterEnter nookMap)) hr hduel (by decide +kernel) (by decide)
    (pursues_turns (by decide +kernel)) haway, by decide +kernel⟩

/-- A map with two narrow ways from (8, 8) to the cells beside (8, 4). -/
def windingMap : Tilemap where
  mapSize := ⟨12, 9⟩
  tiles := [[], [], [7, 8, 9, 10, 11], [7, 11], [7, 8, 9, 11], [5, 9, 11], [6, 7, 8, 9, 11],
    [6, 11], [6, 7, 8, 9, 10, 11]].map fun row =>
      (List.range 12).map fun x => { walkable := decide (x ∈ row) }

/-- The first player has gone to (8, 4). -/
def afterApproach : World :=
  Result.world (handleCMove (.always .accepted) ⟨(enteringPlayer 2 0).info.setCellPos ⟨8, 4⟩⟩
    (afterEnter windingMap))

/-- The shorter of the two ways. -/
theorem isChain_windingMap : [⟨8, 8⟩, ⟨7, 8⟩, ⟨6, 8⟩, ⟨6, 7⟩, ⟨6, 6⟩, ⟨7, 6⟩, ⟨8, 6⟩, ⟨9, 6⟩,
    ⟨9, 5⟩, ⟨9, 4⟩].IsChain (PlanStep windingMap ⟨8, 4⟩ ⟨8, 8⟩) := by decide +kernel

/-- **A monster may walk to and fro between two plans.** From (8, 8) it sets out on the longer way,
and after one step the other one leads to a cell that is nearer as the crow flies. -/
theorem not_neverReturns_windingMap :
    (RoomReachable (.always .accepted) windingMap afterApproach ∧
      Duel windingMap 1 2 ⟨8, 4⟩ afterApproach.room ∧
      afterApproach.room.cells (.monster 1) = some ⟨8, 8⟩ ∧
      (⟨8, 8⟩ : Vec2Int).gap ⟨8, 4⟩ < 10 ∧
      ∃ c : Vec2Int, c.gap ⟨8, 4⟩ = 1 ∧
        ReflTransGen (PlanStep windingMap ⟨8, 4⟩ ⟨8, 8⟩) ⟨8, 8⟩ c) ∧
    Pursues (.always .accepted) 1 3 (turns afterApproach) ∧
      ¬ NeverReturns 1 ⟨8, 4⟩ 3 (turns afterApproach) := by
  have hstep : RoomStep (.always .accepted) (afterEnter windingMap)
      (.handleCMove ⟨(enteringPlayer 2 0).info.setCellPos ⟨8, 4⟩⟩) afterApproach :=
    .handleCMove rfl
  refine ⟨⟨.tail (.single trivial (roomStep_afterEnter windingMap)) trivial hstep,
    .of_keys rfl (by decide +kernel) (by decide +kernel) (by decide +kernel), by decide +kernel,
    by decide, ⟨9, 4⟩, by decide, ?_⟩, pursues_turns (by decide +kernel), fun h => ?_⟩
  · exact List.relationReflTransGen_of_exists_isChain_cons _ isChain_windingMap rfl
  · have hfar : ∀ n < 3, ((turns afterApproach n).room.cells (.monster 1)).all
        (fun c => c.gap ⟨8, 4⟩ ≠ 1) = true := by decide +kernel
    have heq := h 0 1 3 ⟨8, 8⟩ ⟨9, 8⟩ (by decide) (by decide) le_rfl ?_ (by decide +kernel)
      (by decide +kernel) (by decide +kernel)
    · exact absurd heq (by decide)
    · intro n hn c hc
      have hall := hfar n hn
      rw [hc] at hall
      exact of_decide_eq_true hall

end Zelda.Server
