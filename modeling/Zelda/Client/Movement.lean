import Zelda.Client.MyPlayer
import Zelda.Client.TilemapActor

/-!
# Movement between cells

What `Player::TickMove` does to the drawn position, as an exact rational: it moves the player the
way it faces, by its speed times the time of the frame, until a frame begins within 1 px of the
destination.

A player who has one tile to go is `travelled` px from where it was after some frames. It arrives if
a frame begins within the window of 2 px around the destination, and it is never aimed again, so a
frame that steps over the window leaves it moving for good: `arrives_iff`. Steps of less than 2 px
always arrive (`arrives_of_steps_lt`); a sword at 60 frames in a second does not.
-/

namespace Zelda.Client

open Protocol Finset

namespace Vec2

/-- `Vector::operator-` -/
instance : Sub Vec2 := ⟨fun a b => ⟨a.x - b.x, a.y - b.y⟩⟩

theorem sub_def (a b : Vec2) : a - b = ⟨a.x - b.x, a.y - b.y⟩ := rfl

/-- `Vector::LengthSquared`; `Length` is its root. -/
def lengthSquared (a : Vec2) : ℚ := a.x * a.x + a.y * a.y

/-- The point that is `s` times `delta` away. -/
def moved (a : Vec2) (delta : Server.Vec2Int) (s : ℚ) : Vec2 :=
  ⟨a.x + s * delta.x.toInt, a.y + s * delta.y.toInt⟩

/-- How far a point lies beyond another one in the direction of `delta`. -/
def beyond (a b : Vec2) (delta : Server.Vec2Int) : ℚ :=
  (a.x - b.x) * delta.x.toInt + (a.y - b.y) * delta.y.toInt

theorem moved_moved (a : Vec2) (delta : Server.Vec2Int) (s t : ℚ) :
    (a.moved delta s).moved delta t = a.moved delta (s + t) := by
  ext <;> simp only [moved] <;> ring

@[simp] theorem moved_zero (a : Vec2) (delta : Server.Vec2Int) : a.moved delta 0 = a := by
  ext <;> simp [moved]

end Vec2

/-- A `GameObject` with `_pos` and `_destPos`. -/
structure Mover where
  object : GameObject
  pos : Vec2
  destPos : Vec2
  deriving DecidableEq

namespace Mover

/-- Whether the distance to the destination is less than 1. -/
def arrived (m : Mover) : Bool := (m.destPos - m.pos).lengthSquared < 1

/-- The `moveSpeed` of `Player::TickMove`. -/
def moveSpeed (m : Mover) : ℚ := if m.object.stat.speed < 0 then 0 else m.object.stat.speed

/-- `Player::TickMove` -/
def tickMove (m : Mover) (deltaTime : ℚ) : Mover :=
  if m.arrived then { m with object := m.object.setState idle, pos := m.destPos }
  else if m.object.info.dir = dirUp then
    { m with pos := { m.pos with y := m.pos.y - m.moveSpeed * deltaTime } }
  else if m.object.info.dir = dirDown then
    { m with pos := { m.pos with y := m.pos.y + m.moveSpeed * deltaTime } }
  else if m.object.info.dir = dirLeft then
    { m with pos := { m.pos with x := m.pos.x - m.moveSpeed * deltaTime } }
  else if m.object.info.dir = dirRight then
    { m with pos := { m.pos with x := m.pos.x + m.moveSpeed * deltaTime } }
  else m

/-- What becomes of the object is what a frame makes of it that is told whether it has arrived. -/
theorem object_tickMove (m : Mover) (deltaTime : ℚ) :
    (m.tickMove deltaTime).object = m.object.tickMove { arrived := m.arrived } := by
  unfold tickMove GameObject.tickMove
  split_ifs <;> rfl

/-- The first `k` frames of a run. -/
def run (m : Mover) (times : ℕ → ℚ) : ℕ → Mover
  | 0 => m
  | k + 1 => (m.run times k).tickMove (times k)

/-- The time that the first `k` frames take. -/
def elapsed (times : ℕ → ℚ) (k : ℕ) : ℚ := ∑ i ∈ range k, times i

/-- The way that the player goes in the first `k` frames if it does not arrive. -/
def travelled (m : Mover) (times : ℕ → ℚ) (k : ℕ) : ℚ := m.object.stat.speed * elapsed times k

/-- The destination is one tile ahead. -/
def OneTileAhead (m : Mover) (delta : Server.Vec2Int) : Prop :=
  GameObject.deltaXY m.object.info.dir = some delta ∧ m.destPos = m.pos.moved delta 48

/-- The player is back to idle where it was going to. -/
def AtDestination (m : Mover) : Prop := m.object.info.state = idle ∧ m.pos = m.destPos

/-- No frame that the player is still moving in begins 1 px or more beyond the destination, and after
enough time the player is there. -/
structure Arrives (m : Mover) (times : ℕ → ℚ) (delta : Server.Vec2Int) : Prop where
  not_beyond : ∀ k, (m.run times k).object.info.state = move →
    (m.run times k).pos.beyond (m.run times k).destPos delta < 1
  atDestination : ∃ time, ∀ k, time ≤ elapsed times k → (m.run times k).AtDestination

variable {m : Mover} {times : ℕ → ℚ} {delta : Server.Vec2Int}

@[simp] theorem destPos_tickMove (m : Mover) (deltaTime : ℚ) :
    (m.tickMove deltaTime).destPos = m.destPos := by
  unfold tickMove
  split_ifs <;> rfl

/-- A frame that begins at the destination leaves the player there. -/
theorem tickMove_of_arrived (h : m.arrived = true) (deltaTime : ℚ) :
    (m.tickMove deltaTime).AtDestination := by
  rw [tickMove, if_pos h]
  refine ⟨?_, rfl⟩
  rw [GameObject.info_setState]
  rfl

theorem AtDestination.arrived (h : m.AtDestination) : m.arrived = true := by
  simp [Mover.arrived, h.2, Vec2.sub_def, Vec2.lengthSquared]

theorem unit_deltaXY {dir : Int32} (h : GameObject.deltaXY dir = some delta) :
    (delta.x.toInt : ℚ) * delta.x.toInt + (delta.y.toInt : ℚ) * delta.y.toInt = 1 := by
  have hunit : delta.x.toInt * delta.x.toInt + delta.y.toInt * delta.y.toInt = 1 := by
    unfold GameObject.deltaXY at h
    split_ifs at h <;> cases h <;> rfl
  exact_mod_cast hunit

/-- A frame moves a player that has not arrived the way it faces. -/
theorem tickMove_of_not_arrived (hdelta : GameObject.deltaXY m.object.info.dir = some delta)
    (hspeed : 0 < m.object.stat.speed) (h : m.arrived = false) (deltaTime : ℚ) :
    m.tickMove deltaTime = { m with pos := m.pos.moved delta (m.object.stat.speed * deltaTime) } := by
  have hms : m.moveSpeed = m.object.stat.speed := if_neg hspeed.not_gt
  have hone : (1 : Int32).toInt = 1 := rfl
  have hneg : (-1 : Int32).toInt = -1 := rfl
  unfold GameObject.deltaXY at hdelta
  rw [tickMove, if_neg (by simp [h]), hms]
  split_ifs at hdelta ⊢ <;> cases hdelta <;> simp [Vec2.moved, hone, hneg, sub_eq_add_neg]

/-- Between two points of the way. -/
theorem lengthSquared_moved (hdelta : GameObject.deltaXY m.object.info.dir = some delta)
    (a : Vec2) (s t : ℚ) :
    (a.moved delta t - a.moved delta s).lengthSquared = (t - s) * (t - s) := by
  have hunit := unit_deltaXY hdelta
  rw [Vec2.sub_def, Vec2.lengthSquared, Vec2.moved, Vec2.moved]
  linear_combination (t - s) * (t - s) * hunit

theorem beyond_moved (hdelta : GameObject.deltaXY m.object.info.dir = some delta)
    (a : Vec2) (s t : ℚ) : (a.moved delta s).beyond (a.moved delta t) delta = s - t := by
  have hunit := unit_deltaXY hdelta
  rw [Vec2.beyond, Vec2.moved, Vec2.moved]
  linear_combination (s - t) * hunit

/-- The part of the way in which the player has arrived. -/
def Near (s : ℚ) : Prop := 47 < s ∧ s < 49

theorem near_iff {s : ℚ} : Near s ↔ (48 - s) * (48 - s) < 1 := by
  rw [Near, ← pow_two, sq_lt_one_iff_abs_lt_one, abs_lt]
  constructor
  · rintro ⟨h₁, h₂⟩
    constructor <;> linarith
  · rintro ⟨h₁, h₂⟩
    constructor <;> linarith

/-! ## Runs -/

theorem elapsed_succ (times : ℕ → ℚ) (k : ℕ) :
    elapsed times (k + 1) = elapsed times k + times k := sum_range_succ times k

theorem travelled_succ (m : Mover) (times : ℕ → ℚ) (k : ℕ) : m.travelled times (k + 1) =
    m.travelled times k + m.object.stat.speed * times k := by
  rw [travelled, elapsed_succ, mul_add]
  rfl

/-- On its way, a player has arrived if it is near. -/
theorem arrived_iff_near (hahead : m.OneTileAhead delta) {s : ℚ} :
    ({ m with pos := m.pos.moved delta s } : Mover).arrived = true ↔ Near s := by
  rw [arrived, decide_eq_true_iff, near_iff, hahead.2, lengthSquared_moved hahead.1]

/-- A player that was never near its destination has gone straight on. -/
theorem run_of_not_near (hahead : m.OneTileAhead delta) (hspeed : 0 < m.object.stat.speed) (k : ℕ)
    (h : ∀ j < k, ¬ Near (m.travelled times j)) :
    m.run times k = { m with pos := m.pos.moved delta (m.travelled times k) } := by
  induction k with
  | zero => simp [run, travelled, elapsed]
  | succ k ih =>
    have hrun := ih fun j hj => h j (by omega)
    have harrived : (m.run times k).arrived = false := by
      rw [hrun, ← Bool.not_eq_true, arrived_iff_near hahead]
      exact h k (by omega)
    rw [run, tickMove_of_not_arrived (by rw [hrun]; exact hahead.1) (by rw [hrun]; exact hspeed)
      harrived, hrun, travelled_succ, ← Vec2.moved_moved]

/-- A player that was near its destination is there. -/
theorem run_of_near (hahead : m.OneTileAhead delta) (hspeed : 0 < m.object.stat.speed) (k : ℕ)
    (h : ∃ j < k, Near (m.travelled times j)) : (m.run times k).AtDestination := by
  induction k with
  | zero => simp at h
  | succ k ih =>
    refine tickMove_of_arrived ?_ (times k)
    by_cases hbefore : ∃ j < k, Near (m.travelled times j)
    · exact (ih hbefore).arrived
    · obtain ⟨j, hj, hnear⟩ := h
      push Not at hbefore
      obtain rfl : j = k := by
        by_contra hne
        exact hbefore j (by omega) hnear
      rw [run_of_not_near hahead hspeed j hbefore, arrived_iff_near hahead]
      exact hnear

theorem near_of_arrives (hahead : m.OneTileAhead delta) (hstate : m.object.info.state = move)
    (hspeed : 0 < m.object.stat.speed) (h : m.Arrives times delta) {k : ℕ}
    (hk : 49 ≤ m.travelled times k) : ∃ j < k, Near (m.travelled times j) := by
  by_contra hnear
  push Not at hnear
  have hrun := run_of_not_near hahead hspeed k hnear
  have hbeyond := h.not_beyond k (by rw [hrun]; exact hstate)
  rw [hrun, hahead.2, beyond_moved hahead.1] at hbeyond
  linarith

theorem arrives_of_near (hahead : m.OneTileAhead delta) (hspeed : 0 < m.object.stat.speed)
    (hnear : ∀ k, 49 ≤ m.travelled times k → ∃ j < k, Near (m.travelled times j)) :
    m.Arrives times delta := by
  constructor
  · intro k hmove
    by_cases hbefore : ∃ j < k, Near (m.travelled times j)
    · have hidle := (run_of_near hahead hspeed k hbefore).1
      rw [hidle] at hmove
      exact absurd hmove (by decide)
    · have hk : m.travelled times k < 49 := by
        by_contra hge
        exact hbefore (hnear k (not_lt.1 hge))
      push Not at hbefore
      rw [run_of_not_near hahead hspeed k hbefore, hahead.2, beyond_moved hahead.1]
      linarith
  · refine ⟨49 / m.object.stat.speed, fun k hk => run_of_near hahead hspeed k (hnear k ?_)⟩
    rwa [div_le_iff₀ hspeed, mul_comm] at hk

/-- **The movement of a player arrives** exactly if some frame begins near the destination before the
way is 1 px longer than the tile. -/
theorem arrives_iff (m : Mover) (times : ℕ → ℚ) (delta : Server.Vec2Int)
    (hahead : m.OneTileAhead delta) (hstate : m.object.info.state = move)
    (hspeed : 0 < m.object.stat.speed) :
    m.Arrives times delta ↔ ∀ k, 49 ≤ m.travelled times k →
      ∃ j < k, 47 < m.travelled times j ∧ m.travelled times j < 49 :=
  ⟨fun h _ => near_of_arrives hahead hstate hspeed h, arrives_of_near hahead hspeed⟩

/-- Steps of less than 2 px do not miss the destination. -/
theorem arrives_of_steps_lt (hahead : m.OneTileAhead delta) (hspeed : 0 < m.object.stat.speed)
    (hstep : ∀ k, m.object.stat.speed * times k < 2) : m.Arrives times delta := by
  refine arrives_of_near hahead hspeed fun k hk => ?_
  have hex : ∃ j, 47 < m.travelled times j := ⟨k, by linarith⟩
  have hgt := Nat.find_spec hex
  obtain ⟨i, hi⟩ : ∃ i, Nat.find hex = i + 1 := by
    refine Nat.exists_eq_succ_of_ne_zero fun hzero => ?_
    rw [hzero] at hgt
    norm_num [travelled, elapsed] at hgt
  have hbefore := Nat.find_min hex (show i < Nat.find hex by omega)
  have hlt : m.travelled times (Nat.find hex) < 49 := by
    rw [hi, travelled_succ]
    linarith [hstep i]
  refine ⟨Nat.find hex, lt_of_le_of_ne (Nat.find_min' hex (by linarith)) ?_, hgt, hlt⟩
  intro heq
  rw [heq] at hlt
  linarith

/-! ## Destinations -/

/-- `DevScene::ConvertPos`, with the position of the `TilemapActor`. -/
def convertPos (tilemapPos : Vec2) (cellPos : Server.Vec2Int) : Vec2 :=
  ⟨tilemapPos.x + (cellPos.x * tileSize).toInt + (tileSize / 2).toInt,
    tilemapPos.y + (cellPos.y * tileSize).toInt + (tileSize / 2).toInt⟩

/-- `GameObject::SetCellPos` -/
def setCellPos (m : Mover) (tilemapPos : Vec2) (cellPos : Server.Vec2Int) : Mover :=
  { m with object := m.object.setCellPos cellPos, destPos := convertPos tilemapPos cellPos }

theorem toInt_add_mul_tile {x d : Int32} (hx : x.toInt.natAbs < 2 ^ 24) (hd : d.toInt.natAbs ≤ 1) :
    ((x + d) * tileSize).toInt = (x * tileSize).toInt + 48 * d.toInt := by
  have htile : tileSize.toInt = 48 := rfl
  have hadd : (x + d).toInt = x.toInt + d.toInt := by
    rw [Int32.toInt_add, Int.bmod_eq_of_le (by omega) (by omega)]
  rw [Int32.toInt_mul, Int32.toInt_mul, hadd, htile, Int.bmod_eq_of_le (by omega) (by omega),
    Int.bmod_eq_of_le (by omega) (by omega)]
  omega

/-- `TryMove` sends a player that stands in its cell one tile ahead. -/
theorem oneTileAhead_setCellPos {tilemapPos : Vec2} {cellPos : Server.Vec2Int}
    (hdelta : GameObject.deltaXY m.object.info.dir = some delta)
    (hpos : m.pos = convertPos tilemapPos cellPos) (hx : cellPos.x.toInt.natAbs < 2 ^ 24)
    (hy : cellPos.y.toInt.natAbs < 2 ^ 24) :
    (m.setCellPos tilemapPos (cellPos + delta)).OneTileAhead delta := by
  have hunit : delta.x.toInt.natAbs ≤ 1 ∧ delta.y.toInt.natAbs ≤ 1 := by
    unfold GameObject.deltaXY at hdelta
    split_ifs at hdelta <;> cases hdelta <;> decide
  refine ⟨hdelta, ?_⟩
  change convertPos tilemapPos (cellPos + delta) = m.pos.moved delta 48
  rw [hpos, Server.Vec2Int.add_def, convertPos, convertPos, Vec2.moved,
    toInt_add_mul_tile hx hunit.1, toInt_add_mul_tile hy hunit.2]
  ext <;> push_cast <;> ring

/-! ## Runs of a new player -/

/-- A new player on its way to the right, with the weapon it begins with. -/
def swordsman : Mover where
  object := ((GameObject.new .myPlayer).setDir dirRight).setState move
  pos := ⟨24, 24⟩
  destPos := ⟨72, 24⟩

theorem oneTileAhead_swordsman : swordsman.OneTileAhead ⟨1, 0⟩ := by
  have hone : (1 : Int32).toInt = 1 := rfl
  have hzero : (0 : Int32).toInt = 0 := rfl
  refine ⟨rfl, ?_⟩
  norm_num [swordsman, Vec2.moved, hone, hzero]

theorem speed_swordsman : swordsman.object.stat.speed = WeaponType.sword.baseStat.speed := rfl

theorem speed_pos (x : WeaponType) : 0 < x.baseStat.speed := by cases x <;> exact Nat.ofNat_pos

theorem elapsed_const (time : ℚ) (k : ℕ) : elapsed (fun _ => time) k = k * time := by
  simp [elapsed]

theorem arrives_iff_swordsman : swordsman.OneTileAhead ⟨1, 0⟩ ∧
    swordsman.object.info.state = move ∧ 0 < swordsman.object.stat.speed ∧
    (swordsman.Arrives (fun _ => 1 / 200) ⟨1, 0⟩ ↔
      ∀ k, 49 ≤ swordsman.travelled (fun _ => 1 / 200) k → ∃ j < k,
        47 < swordsman.travelled (fun _ => 1 / 200) j ∧
          swordsman.travelled (fun _ => 1 / 200) j < 49) :=
  ⟨oneTileAhead_swordsman, rfl, speed_pos .sword,
    arrives_iff swordsman (fun _ => 1 / 200) ⟨1, 0⟩ oneTileAhead_swordsman rfl (speed_pos .sword)⟩

/-- At 60 frames in a second the player is 46⅔ px on its way, and then 50. -/
theorem not_arrives_swordsman : swordsman.OneTileAhead ⟨1, 0⟩ ∧
    swordsman.object.info.state = move ∧
    swordsman.object.stat.speed = WeaponType.sword.baseStat.speed ∧
    ¬ swordsman.Arrives (fun _ => 1 / 60) ⟨1, 0⟩ := by
  refine ⟨oneTileAhead_swordsman, rfl, speed_swordsman, fun h => ?_⟩
  have htravelled : ∀ k, swordsman.travelled (fun _ => 1 / 60) k = 10 / 3 * k := by
    intro k
    rw [travelled, elapsed_const, speed_swordsman, WeaponType.baseStat]
    ring
  obtain ⟨j, hj, hgt, hlt⟩ := near_of_arrives oneTileAhead_swordsman rfl (speed_pos .sword) h
    (k := 15) (by rw [htravelled]; norm_num)
  rw [htravelled] at hgt hlt
  have hle : (j : ℚ) ≤ 14 := by exact_mod_cast Nat.lt_succ_iff.1 hj
  linarith

end Mover

end Zelda.Client
