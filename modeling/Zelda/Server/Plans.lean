import Zelda.Foundations.Trails
import Zelda.Server.FindPathTermination

/-!
# Plans

A monster that pursues a player makes a plan, takes the first step of it, and makes another plan
where it then is. A plan leads to a cell as near to the player as can be reached, and among those
that are equally near to one at the least distance from the monster as the crow flies, however long
the way there is. So the next plan may lead to another cell, and back.

Main result: `leadsAway_of_open`. On open ground a plan comes nearer to the player at once, so that
planning anew never leads back.
-/

namespace Zelda.Server

open Relation LinkedSearch

variable {m : Tilemap} {p c c' d a b e : Vec2Int}

/-- A step of a plan made at `c`, with the player on `p`: to a walkable neighbour that is near
enough to `c` and on which neither of the two stands. -/
def PlanStep (m : Tilemap) (p c a b : Vec2Int) : Prop :=
  (∃ dir ∈ front, b = a + dir) ∧ m.Walkable b ∧ b ≠ p ∧ b ≠ c ∧ c.gap b < 10

instance : DecidableRel (PlanStep m p c) := fun _ _ =>
  inferInstanceAs (Decidable (_ ∧ _ ∧ _ ∧ _ ∧ _))

/-- Where a plan leads: to one of the cells nearest to the player that steps lead to, among these to
one of those nearest to `c`, and of these to the one that `VectorInt::operator<` puts first. -/
structure PlanGoal (m : Tilemap) (p c d : Vec2Int) : Prop where
  reachable : ReflTransGen (PlanStep m p c) c d
  least : ∀ x, ReflTransGen (PlanStep m p c) c x →
    p.gap d < p.gap x ∨ p.gap d = p.gap x ∧
      (c.gap d < c.gap x ∨ c.gap d = c.gap x ∧ (compare d x).isLE)

/-- The first step of a plan, which goes on to its goal without ever being farther from the player
than every way there has to be. -/
structure FirstStep (m : Tilemap) (p c c' : Vec2Int) : Prop where
  near : c.gap p < 10
  step : PlanStep m p c c c'
  plan : ∃ d, PlanGoal m p c d ∧ ∀ bound, Within (PlanStep m p c) p.gap bound c d →
    p.gap c' ≤ bound ∧ Within (PlanStep m p c) p.gap bound c' d

/-- Making a plan at `c` and another one after every first step never leads back to `c`. -/
def LeadsAway (m : Tilemap) (p c : Vec2Int) : Prop := ¬ TransGen (FirstStep m p) c c

/-! ## Straight ways -/

theorem Tilemap.inside_iff : m.Inside c ↔ 0 ≤ c.x.toInt ∧ c.x.toInt < m.mapSize.x.toInt ∧
    0 ≤ c.y.toInt ∧ c.y.toInt < m.mapSize.y.toInt := by
  simp only [Inside, Int32.le_iff_toInt_le, Int32.lt_iff_toInt_lt, Int32.toInt_zero]

theorem toInt_add_one {x y : Int32} (h : x.toInt < y.toInt) : (x + 1).toInt = x.toInt + 1 := by
  have h₁ := x.le_toInt
  have h₂ := y.toInt_lt
  have hone : (1 : Int32).toInt = 1 := by decide
  rw [Int32.toInt_add, hone, Int.bmod_eq_of_le (by omega) (by omega)]

theorem toInt_add_neg_one {x y : Int32} (h : y.toInt < x.toInt) :
    (x + -1).toInt = x.toInt - 1 := by
  have h₁ := y.le_toInt
  have h₂ := x.toInt_lt
  have hone : (-1 : Int32).toInt = -1 := by decide
  rw [Int32.toInt_add, hone, Int.bmod_eq_of_le (by omega) (by omega)]
  rfl

/-- From a cell of the map one neighbour is nearer to another cell of the map. -/
theorem exists_nearer (ha : m.Inside a) (he : m.Inside e) (hne : a ≠ e) :
    ∃ dir ∈ front, m.Inside (a + dir) ∧ a.gap (a + dir) = 1 ∧ (a + dir).gap e + 1 = a.gap e := by
  rw [Tilemap.inside_iff] at ha he
  simp only [Tilemap.inside_iff, Vec2Int.gap, Vec2Int.add_def]
  rcases Int.lt_trichotomy a.x.toInt e.x.toInt with hx | hx | hx
  · have hstep := toInt_add_one hx
    refine ⟨⟨1, 0⟩, by decide, ?_⟩
    simp only [Int32.add_zero]
    omega
  · rcases Int.lt_trichotomy a.y.toInt e.y.toInt with hy | hy | hy
    · have hstep := toInt_add_one hy
      refine ⟨⟨0, 1⟩, by decide, ?_⟩
      simp only [Int32.add_zero]
      omega
    · exact absurd (Vec2Int.ext (Int32.toInt_inj.1 hx) (Int32.toInt_inj.1 hy)) hne
    · have hstep := toInt_add_neg_one hy
      refine ⟨⟨0, -1⟩, by decide, ?_⟩
      simp only [Int32.add_zero]
      omega
  · have hstep := toInt_add_neg_one hx
    refine ⟨⟨-1, 0⟩, by decide, ?_⟩
    simp only [Int32.add_zero]
    omega

/-- A step of a straight way from `c` to `e`: a cell of the map between the two. -/
def Toward (m : Tilemap) (c e a b : Vec2Int) : Prop :=
  (∃ dir ∈ front, b = a + dir) ∧ m.Inside b ∧ b ≠ c ∧ c.gap b + b.gap e = c.gap e

/-- Within the map straight ways lead everywhere. -/
theorem exists_straightWay (ha : m.Inside a) (he : m.Inside e)
    (hbetween : c.gap a + a.gap e = c.gap e) : ReflTransGen (Toward m c e) a e := by
  induction hn : a.gap e generalizing a with
  | zero =>
    rw [Vec2Int.gap_eq_zero.1 hn]
  | succ n ih =>
    have hne : a ≠ e := by
      rintro rfl
      rw [Vec2Int.gap_eq_zero.2 rfl] at hn
      cases hn
    obtain ⟨dir, hdir, hinside, hone, hnear⟩ := exists_nearer ha he hne
    have htri := Vec2Int.gap_triangle c a (a + dir)
    have htri' := Vec2Int.gap_triangle c (a + dir) e
    have hbetween' : c.gap (a + dir) + (a + dir).gap e = c.gap e := by omega
    have hleft : a + dir ≠ c := by
      intro heq
      rw [heq, Vec2Int.gap_eq_zero.2 rfl] at hbetween'
      rw [heq] at hnear
      omega
    exact .head ⟨⟨dir, hdir, rfl⟩, hinside, hleft, hbetween'⟩ (ih hinside hbetween' (by omega))

/-! ## Open ground -/

theorem inside_of_planSteps (ha : m.Inside a) (h : ReflTransGen (PlanStep m p c) a b) :
    m.Inside b := by
  rcases h.cases_tail with rfl | ⟨_, -, hlast⟩
  · exact ha
  · exact hlast.2.1.inside

/-- What is not the player's cell does not become it. -/
theorem ne_of_planSteps (ha : a ≠ p) (h : ReflTransGen (PlanStep m p c) a b) : b ≠ p := by
  rcases h.cases_tail with rfl | ⟨_, -, hlast⟩
  · exact ha
  · exact hlast.2.2.1

/-- On the player's own cell a plan leads nowhere. -/
theorem FirstStep.ne (h : FirstStep m p c c') : c ≠ p := by
  rintro rfl
  obtain ⟨d, hgoal, hplan⟩ := h.plan
  have hself : c.gap c = 0 := Vec2Int.gap_eq_zero.2 rfl
  have hleast := hgoal.least c .refl
  have hd : c = d := Vec2Int.gap_eq_zero.1 (by omega)
  rw [← hd] at hplan
  have hclose := (hplan 0 .refl).1
  exact h.step.2.2.1 (Vec2Int.gap_eq_zero.1 (by omega)).symm

section Open

variable (hopen : ∀ x, m.Inside x → m.Walkable x) (hc : m.Inside c) (hp : m.Inside p)
include hopen

/-- A straight way to a cell that is nearer than the player is made of steps of a plan. -/
theorem planStep_of_toward (hnear : c.gap p < 10) (hd : c.gap d < c.gap p)
    (h : Toward m c d a b) : PlanStep m p c a b := by
  obtain ⟨hdir, hinside, hne, hbetween⟩ := h
  refine ⟨hdir, hopen b hinside, ?_, hne, by omega⟩
  rintro rfl
  omega

include hc hp

/-- A plan leads to a cell beside the player, on the near side. -/
theorem PlanGoal.beside (hnear : c.gap p < 10) (hne : c ≠ p) (h : PlanGoal m p c d) :
    p.gap d = 1 ∧ c.gap d < c.gap p := by
  obtain ⟨dir, -, hinside, hone, hbeside⟩ := exists_nearer hp hc hne.symm
  have hcp := Vec2Int.gap_comm c p
  have hce := Vec2Int.gap_comm c (p + dir)
  have hself : c.gap c = 0 := Vec2Int.gap_eq_zero.2 rfl
  have hway := exists_straightWay hc hinside (show c.gap c + c.gap (p + dir) = _ by omega)
  have hreach : ReflTransGen (PlanStep m p c) c (p + dir) :=
    ReflTransGen.mono (fun _ _ => planStep_of_toward hopen hnear (by omega)) _ _ hway
  have hleast := h.least _ hreach
  have hpos : p.gap d ≠ 0 := by
    intro hzero
    exact ne_of_planSteps hne h.reachable (Vec2Int.gap_eq_zero.1 hzero).symm
  omega

/-- The first step of a plan comes nearer to the player. -/
theorem FirstStep.gap_lt (h : FirstStep m p c c') : p.gap c' < p.gap c := by
  obtain ⟨d, hgoal, hplan⟩ := h.plan
  obtain ⟨hone, hd⟩ := hgoal.beside hopen hc hp h.near h.ne
  have hcp := Vec2Int.gap_comm c p
  have hself : c.gap c = 0 := Vec2Int.gap_eq_zero.2 rfl
  have hway := exists_straightWay hc (inside_of_planSteps hc hgoal.reachable)
    (show c.gap c + c.gap d = _ by omega)
  have hwithin : Within (PlanStep m p c) p.gap (c.gap p - 1) c d := by
    refine ReflTransGen.mono (fun a b hab => ⟨planStep_of_toward hopen h.near hd hab, ?_⟩) _ _ hway
    obtain ⟨-, -, hne, hbetween⟩ := hab
    have htri := Vec2Int.gap_triangle p d b
    have hdb := Vec2Int.gap_comm d b
    have hpos : c.gap b ≠ 0 := fun hzero => hne (Vec2Int.gap_eq_zero.1 hzero).symm
    omega
  have hle := (hplan _ hwithin).1
  omega

/-- **On open ground plans lead away** from every cell. -/
theorem leadsAway_of_open : LeadsAway m p c := by
  have hfall : ∀ b, TransGen (FirstStep m p) c b → m.Inside b ∧ p.gap b < p.gap c := by
    intro b hb
    induction hb with
    | single h => exact ⟨h.step.2.1.inside, h.gap_lt hopen hc hp⟩
    | tail _ h ih => exact ⟨h.step.2.1.inside, (h.gap_lt hopen ih.1 hp).trans ih.2⟩
  intro hcircle
  exact absurd (hfall c hcircle).2 (lt_irrefl _)

end Open

end Zelda.Server
