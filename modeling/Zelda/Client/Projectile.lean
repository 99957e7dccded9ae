import Zelda.Client.Combat
import Zelda.Client.Movement

/-!
# Arrows

An arrow or a staff projectile flies from cell to cell. At rest in a cell it asks for the next one
in its direction: if one can go there it sets out, and else it is removed, and an effect is shown
there if it has run into a creature. On its way it is drawn 600 px a second further on, until a frame
begins within 5 px of where it is going. Positions and times are exact rationals, as in
`Client/Movement`. The code rounds them to `float`, and a frame that begins at the very edge of the
window for rationals may begin outside of it for the code.

When every frame is shorter than 1/60 s no frame steps over that window, so that a cell takes at
most 73/600 s (`Resting.tick`, `Flying.tick`).

Main result: `flight_of_run`. Every flight ends at the first cell that the projectile finds taken,
whatever else goes on in the scene.
-/

namespace Zelda.Client

open Protocol

/-- `DevScene::CanGo`, on a map that is loaded. -/
def DevScene.canGo (scene : DevScene) (tilemap : Tilemap) (cellPos : Server.Vec2Int) : Bool :=
  match tilemap.getTileAt cellPos with
  | none => false
  | some tile => if (scene.getCreatureAt cellPos).isSome then false else tile.walkable

/-- `class Arrow` and `class Staff`, which differ in their flipbooks only, with exact positions. -/
structure Projectile where
  info : ObjectInfo
  pos : Vec2
  destPos : Vec2
  deriving DecidableEq

namespace Projectile

/-- What a projectile finds when it ticks. -/
structure Surroundings where
  scene : DevScene
  tilemap : Tilemap
  deltaTime : ℚ

/-- `Arrow::TickIdle` and `Staff::TickIdle`. A projectile that is removed leaves the cell at which
it spawns a `HitEffect`, if it does. -/
def tickIdle (a : Projectile) (tilemapPos : Vec2) (s : Surroundings) :
    Projectile ⊕ Option Server.Vec2Int :=
  match GameObject.deltaXY a.info.dir with
  | none => .inl a
  | some delta =>
    let nextPos := a.info.getCellPos + delta
    if s.scene.canGo s.tilemap nextPos then
      .inl { a with
        info := (a.info.setCellPos nextPos).setState move
        destPos := Mover.convertPos tilemapPos nextPos }
    else .inr ((s.scene.getCreatureAt nextPos).map fun _ => nextPos)

/-- The `600 * deltaTime` of `Arrow::TickMove` and `Staff::TickMove`. -/
def step (s : Surroundings) : ℚ := 600 * s.deltaTime

/-- `Arrow::TickMove` and `Staff::TickMove` -/
def tickMove (a : Projectile) (s : Surroundings) : Projectile :=
  if (a.destPos - a.pos).lengthSquared < 5 * 5 then
    { a with info := a.info.setState idle, pos := a.destPos }
  else if a.info.dir = dirUp then { a with pos := { a.pos with y := a.pos.y - step s } }
  else if a.info.dir = dirDown then { a with pos := { a.pos with y := a.pos.y + step s } }
  else if a.info.dir = dirLeft then { a with pos := { a.pos with x := a.pos.x - step s } }
  else if a.info.dir = dirRight then { a with pos := { a.pos with x := a.pos.x + step s } }
  else a

/-- `GameObject::Tick`; `TickSkill` of a projectile does nothing. -/
def tick (a : Projectile) (tilemapPos : Vec2) (s : Surroundings) :
    Projectile ⊕ Option Server.Vec2Int :=
  if a.info.state = idle then a.tickIdle tilemapPos s
  else if a.info.state = move then .inl (a.tickMove s)
  else .inl a

/-- `SpawnObject<Arrow>(cellPos)` and `SetDir`, at the end of `Player::TickSkill`. -/
def spawn (tilemapPos : Vec2) (cellPos : Server.Vec2Int) (dir : Int32) : Projectile where
  info := (((({} : ObjectInfo).setCellPos cellPos).setState move).setState idle).setDir dir
  pos := Mover.convertPos tilemapPos cellPos
  destPos := Mover.convertPos tilemapPos cellPos

/-- The first `k` frames of a projectile. -/
def run (a : Projectile) (tilemapPos : Vec2) (frames : ℕ → Surroundings) :
    ℕ → Projectile ⊕ Option Server.Vec2Int
  | 0 => .inl a
  | k + 1 =>
    match a.run tilemapPos frames k with
    | .inl b => b.tick tilemapPos (frames k)
    | .inr hit => .inr hit

/-- The cell `i` steps ahead. -/
def cellAhead (cellPos delta : Server.Vec2Int) (i : ℕ) : Server.Vec2Int := (· + delta)^[i] cellPos

/-- No coordinate is as large as 2²⁴, so that no place on the screen overflows. -/
def Drawable (cellPos : Server.Vec2Int) : Prop :=
  cellPos.x.toInt.natAbs < 2 ^ 24 ∧ cellPos.y.toInt.natAbs < 2 ^ 24

variable {tilemapPos : Vec2} {cellPos delta : Server.Vec2Int} {dir : Int32} {s : Surroundings}
  {frames : ℕ → Surroundings} {a a' : Projectile} {hit : Option Server.Vec2Int} {i k : ℕ}

theorem cellAhead_succ (cellPos delta : Server.Vec2Int) (i : ℕ) :
    cellAhead cellPos delta (i + 1) = cellAhead cellPos delta i + delta :=
  Function.iterate_succ_apply' _ i cellPos

/-! ## Cells and places -/

theorem walkable_of_canGo (h : s.scene.canGo s.tilemap cellPos = true) :
    s.tilemap.Walkable cellPos := by
  unfold DevScene.canGo at h
  cases ht : s.tilemap.getTileAt cellPos with
  | none =>
    rw [ht] at h
    cases h
  | some tile =>
    rw [ht] at h
    simp only at h
    split at h
    · cases h
    · exact ⟨tile, ht, h⟩

/-- What is on a map that is not too large can be drawn. -/
theorem drawable_of_canGo (hsize : s.tilemap.mapSize.x.toInt ≤ 2 ^ 24 ∧
    s.tilemap.mapSize.y.toInt ≤ 2 ^ 24) (h : s.scene.canGo s.tilemap cellPos = true) :
    Drawable cellPos := by
  obtain ⟨hx, hxs, hy, hys⟩ := (walkable_of_canGo h).inside
  rw [Int32.le_iff_toInt_le, Int32.toInt_zero] at hx hy
  rw [Int32.lt_iff_toInt_lt] at hxs hys
  constructor <;> omega

theorem natAbs_deltaXY (h : GameObject.deltaXY dir = some delta) :
    delta.x.toInt.natAbs ≤ 1 ∧ delta.y.toInt.natAbs ≤ 1 := by
  unfold GameObject.deltaXY at h
  split_ifs at h <;> cases h <;> decide

/-- The next cell is drawn one tile further on. -/
theorem convertPos_add (hdelta : GameObject.deltaXY dir = some delta) (h : Drawable cellPos) :
    Mover.convertPos tilemapPos (cellPos + delta) =
      (Mover.convertPos tilemapPos cellPos).moved delta 48 := by
  obtain ⟨hdx, hdy⟩ := natAbs_deltaXY hdelta
  rw [Server.Vec2Int.add_def, Mover.convertPos, Mover.convertPos, Vec2.moved,
    Mover.toInt_add_mul_tile h.1 hdx, Mover.toInt_add_mul_tile h.2 hdy]
  ext <;> push_cast <;> ring

/-- How far a cell lies ahead. -/
def along (delta cellPos : Server.Vec2Int) : ℤ :=
  cellPos.x.toInt * delta.x.toInt + cellPos.y.toInt * delta.y.toInt

theorem along_add (hdelta : GameObject.deltaXY dir = some delta) (h : Drawable cellPos) :
    along delta (cellPos + delta) = along delta cellPos + 1 := by
  obtain ⟨hdx, hdy⟩ := natAbs_deltaXY hdelta
  have hx : (cellPos.x + delta.x).toInt = cellPos.x.toInt + delta.x.toInt := by
    rw [Int32.toInt_add, Int.bmod_eq_of_le] <;> have := h.1 <;> omega
  have hy : (cellPos.y + delta.y).toInt = cellPos.y.toInt + delta.y.toInt := by
    rw [Int32.toInt_add, Int.bmod_eq_of_le] <;> have := h.2 <;> omega
  have hunit : (delta.x.toInt : ℤ) * delta.x.toInt + delta.y.toInt * delta.y.toInt = 1 := by
    exact_mod_cast Mover.unit_deltaXY hdelta
  rw [along, along, Server.Vec2Int.add_def, hx, hy]
  linear_combination hunit

theorem along_le (hdelta : GameObject.deltaXY dir = some delta) (h : Drawable cellPos) :
    (along delta cellPos).natAbs ≤ 2 ^ 24 := by
  obtain ⟨hx, hy⟩ := h
  unfold GameObject.deltaXY at hdelta
  have hone : (1 : Int32).toInt = 1 := rfl
  have hneg : (-1 : Int32).toInt = -1 := rfl
  split_ifs at hdelta <;> cases hdelta <;> simp only [along, hone, hneg, Int32.toInt_zero] <;> omega

theorem lengthSquared_sub_moved (hdelta : GameObject.deltaXY dir = some delta) (p : Vec2) (t : ℚ) :
    (p - p.moved delta t).lengthSquared = t * t := by
  have hunit := Mover.unit_deltaXY hdelta
  rw [Vec2.sub_def, Vec2.lengthSquared, Vec2.moved]
  linear_combination t * t * hunit

theorem tickMove_of_far (hdelta : GameObject.deltaXY a.info.dir = some delta)
    (h : ¬ (a.destPos - a.pos).lengthSquared < 5 * 5) (s : Surroundings) :
    a.tickMove s = { a with pos := a.pos.moved delta (step s) } := by
  have hone : (1 : Int32).toInt = 1 := rfl
  have hneg : (-1 : Int32).toInt = -1 := rfl
  unfold GameObject.deltaXY at hdelta
  rw [tickMove, if_neg h]
  split_ifs at hdelta ⊢ <;> cases hdelta <;> simp [Vec2.moved, hone, hneg, sub_eq_add_neg]

/-! ## A frame of the flight -/

/-- The time that the first `k` frames take. -/
def time (frames : ℕ → Surroundings) (k : ℕ) : ℚ :=
  Mover.elapsed (fun l => (frames l).deltaTime) k

theorem time_succ (frames : ℕ → Surroundings) (k : ℕ) :
    time frames (k + 1) = time frames k + (frames k).deltaTime :=
  Mover.elapsed_succ _ k

/-- One can go to the `j`-th cell ahead in frame `l`. -/
def Free (cellPos delta : Server.Vec2Int) (frames : ℕ → Surroundings) (l j : ℕ) : Prop :=
  (frames l).scene.canGo (frames l).tilemap (cellAhead cellPos delta j) = true

/-- The projectile rests in the `i`-th cell, and has taken at most 73/600 s for each. -/
structure Resting (frames : ℕ → Surroundings) (k : ℕ) (a : Projectile) (i : ℕ) : Prop where
  state : a.info.state = idle
  pos : a.pos = a.destPos
  inTime : time frames k ≤ i * (73 / 600)

/-- The projectile has flown `t` px from the `i`-th cell towards the next one. The frame in which it
set out has taken up to 1/60 s, and so will the frame in which it arrives. -/
structure Flying (delta : Server.Vec2Int) (frames : ℕ → Surroundings) (k : ℕ) (a : Projectile)
    (i : ℕ) (t : ℚ) : Prop where
  state : a.info.state = move
  pos : a.pos = a.destPos.moved delta (t - 48)
  lt : t < 53
  inTime : time frames k ≤ i * (73 / 600) + (10 + t) / 600

/-- After `k` frames the `i`-th cell ahead is where the projectile is or flies to. All cells so far
were free when it set out for them. -/
structure Heading (tilemapPos : Vec2) (cellPos delta : Server.Vec2Int) (dir : Int32)
    (frames : ℕ → Surroundings) (k : ℕ) (a : Projectile) (i : ℕ) : Prop where
  dir_eq : a.info.dir = dir
  cell_eq : a.info.getCellPos = cellAhead cellPos delta i
  destPos_eq : a.destPos = Mover.convertPos tilemapPos (cellAhead cellPos delta i)
  free : ∀ j, 0 < j → j ≤ i → ∃ l < k, Free cellPos delta frames l j
  drawable : Drawable (cellAhead cellPos delta i)
  along_eq : along delta (cellAhead cellPos delta i) = along delta cellPos + i

/-- What holds of a projectile as long as it is there. -/
def OnWay (tilemapPos : Vec2) (cellPos delta : Server.Vec2Int) (dir : Int32)
    (frames : ℕ → Surroundings) (k : ℕ) (a : Projectile) (i : ℕ) : Prop :=
  Heading tilemapPos cellPos delta dir frames k a i ∧
    (Resting frames k a i ∨ ∃ j t, i = j + 1 ∧ Flying delta frames k a j t)

/-- Every frame is shorter than 1/60 s, on a map of fewer than 2²⁴ rows and columns. -/
structure Smooth (frames : ℕ → Surroundings) : Prop where
  short : ∀ k, (frames k).deltaTime < 1 / 60
  size : ∀ k, (frames k).tilemap.mapSize.x.toInt ≤ 2 ^ 24 ∧
    (frames k).tilemap.mapSize.y.toInt ≤ 2 ^ 24

/-- A projectile at rest sets out for the next cell, or is removed because that is taken. -/
theorem Resting.tick (hdelta : GameObject.deltaXY dir = some delta) (hsmooth : Smooth frames)
    (hhead : Heading tilemapPos cellPos delta dir frames k a i) (h : Resting frames k a i) :
    (∃ a', a.tick tilemapPos (frames k) = .inl a' ∧
      OnWay tilemapPos cellPos delta dir frames (k + 1) a' (i + 1)) ∨
    (¬ Free cellPos delta frames k (i + 1) ∧ a.tick tilemapPos (frames k) =
      .inr (((frames k).scene.getCreatureAt (cellAhead cellPos delta (i + 1))).map
        fun _ => cellAhead cellPos delta (i + 1))) := by
  have htick : a.tick tilemapPos (frames k) = a.tickIdle tilemapPos (frames k) := if_pos h.state
  have hnext : a.info.getCellPos + delta = cellAhead cellPos delta (i + 1) := by
    rw [hhead.cell_eq, cellAhead_succ]
  rw [htick, tickIdle, hhead.dir_eq, hdelta]
  simp only [hnext]
  by_cases hfree : Free cellPos delta frames k (i + 1)
  · have hgo : (frames k).scene.canGo (frames k).tilemap (cellAhead cellPos delta (i + 1)) = true :=
      hfree
    rw [if_pos hgo]
    refine .inl ⟨_, rfl, ⟨hhead.dir_eq, rfl, rfl, ?_, ?_, ?_⟩, .inr ⟨i, 0, rfl, rfl, ?_, ?_, ?_⟩⟩
    · intro j hj hji
      rcases Nat.lt_or_ge i j with hlt | hle
      · exact ⟨k, Nat.lt_succ_self k, (show j = i + 1 by omega) ▸ hfree⟩
      · obtain ⟨l, hl, hfree⟩ := hhead.free j hj hle
        exact ⟨l, by omega, hfree⟩
    · exact drawable_of_canGo (hsmooth.size k) hgo
    · rw [cellAhead_succ, along_add hdelta hhead.drawable, hhead.along_eq]
      push_cast
      ring
    · -- it is still drawn where it was, 48 px before the new cell
      show a.pos = (Mover.convertPos tilemapPos (cellAhead cellPos delta (i + 1))).moved delta
        (0 - 48)
      rw [h.pos, hhead.destPos_eq, cellAhead_succ, convertPos_add hdelta hhead.drawable,
        Vec2.moved_moved]
      norm_num
    · norm_num
    · have hshort := hsmooth.short k
      have htime := h.inTime
      rw [time_succ]
      linarith
  · have hstop : ¬ (frames k).scene.canGo (frames k).tilemap
        (cellAhead cellPos delta (i + 1)) = true := hfree
    rw [if_neg hstop]
    exact .inr ⟨hfree, rfl⟩

/-- A projectile that flies arrives when it has gone more than 43 px, and goes on before. -/
theorem Flying.tick (hdelta : GameObject.deltaXY dir = some delta) (hsmooth : Smooth frames)
    {t : ℚ} (hhead : Heading tilemapPos cellPos delta dir frames k a (i + 1))
    (h : Flying delta frames k a i t) :
    ∃ a', a.tick tilemapPos (frames k) = .inl a' ∧
      OnWay tilemapPos cellPos delta dir frames (k + 1) a' (i + 1) := by
  have hshort := hsmooth.short k
  have htime := h.inTime
  have hlt := h.lt
  have hne : a.info.state ≠ idle := by
    rw [h.state]
    decide
  have htick : a.tick tilemapPos (frames k) = .inl (a.tickMove (frames k)) := by
    rw [Projectile.tick, if_neg hne, if_pos h.state]
  have hlength : (a.destPos - a.pos).lengthSquared = (t - 48) * (t - 48) := by
    rw [h.pos, lengthSquared_sub_moved hdelta]
  have hfree : ∀ j, 0 < j → j ≤ i + 1 → ∃ l < k + 1, Free cellPos delta frames l j := by
    intro j hj hji
    obtain ⟨l, hl, hfree⟩ := hhead.free j hj hji
    exact ⟨l, by omega, hfree⟩
  by_cases hnear : (a.destPos - a.pos).lengthSquared < 5 * 5
  · refine ⟨_, htick, ?_⟩
    rw [tickMove, if_pos hnear]
    refine ⟨⟨hhead.dir_eq, hhead.cell_eq, hhead.destPos_eq, hfree, hhead.drawable,
      hhead.along_eq⟩, .inl ⟨rfl, rfl, ?_⟩⟩
    rw [time_succ]
    push_cast
    linarith
  · have hfar : t ≤ 43 := by
      by_contra hgt
      refine hnear ?_
      rw [hlength]
      nlinarith
    refine ⟨_, htick, ?_⟩
    rw [tickMove_of_far (hhead.dir_eq ▸ hdelta) hnear]
    refine ⟨⟨hhead.dir_eq, hhead.cell_eq, hhead.destPos_eq, hfree, hhead.drawable,
      hhead.along_eq⟩, .inr ⟨i, t + step (frames k), rfl, h.state, ?_, ?_, ?_⟩⟩
    · show a.pos.moved delta (step (frames k)) = _
      rw [h.pos, Vec2.moved_moved]
      congr 1
      ring
    · rw [step]
      linarith
    · rw [time_succ, step]
      linarith

/-! ## The flight -/

/-- The flight ends in frame `k`, in the `i`-th cell ahead. -/
structure EndsAt (tilemapPos : Vec2) (cellPos delta : Server.Vec2Int) (dir : Int32)
    (frames : ℕ → Surroundings) (k i : ℕ) : Prop where
  /-- The projectile is there until then, and drawn in that cell at last. -/
  resting : ∃ a, (spawn tilemapPos cellPos dir).run tilemapPos frames k = .inl a ∧
    a.info.getCellPos = cellAhead cellPos delta i ∧
    a.pos = Mover.convertPos tilemapPos (cellAhead cellPos delta i)
  /-- Every cell on the way was free when the projectile set out for it. -/
  free : ∀ j, 0 < j → j ≤ i → ∃ l < k, Free cellPos delta frames l j
  taken : ¬ Free cellPos delta frames k (i + 1)
  /-- Afterwards it is gone, with an effect in the next cell if a creature was there. -/
  removed : ∀ l, k < l → (spawn tilemapPos cellPos dir).run tilemapPos frames l =
    .inr (((frames k).scene.getCreatureAt (cellAhead cellPos delta (i + 1))).map
      fun _ => cellAhead cellPos delta (i + 1))
  inTime : time frames k ≤ i * (73 / 600)

theorem run_of_removed (h : a.run tilemapPos frames k = .inr hit) {l : ℕ} (hl : k ≤ l) :
    a.run tilemapPos frames l = .inr hit := by
  induction hl with
  | refl => exact h
  | step _ ih => rw [run, ih]

theorem onWay_spawn (hcell : Drawable cellPos) : OnWay tilemapPos cellPos delta dir frames 0
    (spawn tilemapPos cellPos dir) 0 := by
  refine ⟨⟨rfl, rfl, rfl, fun j hj hj0 => absurd hj (by omega), hcell, ?_⟩, .inl ⟨rfl, rfl, ?_⟩⟩
  · exact (add_zero _).symm
  · simp [time, Mover.elapsed]

/-- A projectile that is still there has not been flying for long: the map comes to an end. -/
theorem OnWay.time_le (hdelta : GameObject.deltaXY dir = some delta) (hcell : Drawable cellPos)
    (h : OnWay tilemapPos cellPos delta dir frames k a i) :
    time frames k ≤ (2 ^ 25 + 1) * (73 / 600) := by
  obtain ⟨hhead, hphase⟩ := h
  have hfrom := along_le hdelta hcell
  have hto := along_le hdelta hhead.drawable
  rw [hhead.along_eq] at hto
  have hi : i ≤ 2 ^ 25 := by omega
  rcases hphase with hrest | ⟨j, t, rfl, hfly⟩
  · have hcells : (i : ℚ) ≤ 2 ^ 25 := by exact_mod_cast hi
    have htime := hrest.inTime
    linarith
  · have hcells : (j : ℚ) ≤ 2 ^ 25 := by exact_mod_cast (Nat.le_of_succ_le hi)
    have htime := hfly.inTime
    have hlt := hfly.lt
    linarith

/-- After any number of frames the projectile is on its way, or its flight has ended. -/
theorem onWay_or_endsAt (tilemapPos : Vec2) (hdelta : GameObject.deltaXY dir = some delta)
    (hcell : Drawable cellPos) (hsmooth : Smooth frames) (k : ℕ) :
    (∃ a i, (spawn tilemapPos cellPos dir).run tilemapPos frames k = .inl a ∧
      OnWay tilemapPos cellPos delta dir frames k a i) ∨
    ∃ l i, EndsAt tilemapPos cellPos delta dir frames l i := by
  induction k with
  | zero => exact .inl ⟨_, 0, rfl, onWay_spawn hcell⟩
  | succ k ih =>
    rcases ih with ⟨a, i, hrun, hhead, hphase⟩ | hend
    · have hnext : (spawn tilemapPos cellPos dir).run tilemapPos frames (k + 1) =
          a.tick tilemapPos (frames k) := by rw [run, hrun]
      rw [hnext]
      rcases hphase with hrest | ⟨j, t, rfl, hfly⟩
      · rcases hrest.tick hdelta hsmooth hhead with ⟨a', htick, hway⟩ | ⟨htaken, htick⟩
        · exact .inl ⟨a', i + 1, htick, hway⟩
        · refine .inr ⟨k, i, ⟨a, hrun, hhead.cell_eq, ?_⟩, hhead.free, htaken, ?_, hrest.inTime⟩
          · rw [hrest.pos, hhead.destPos_eq]
          · exact fun l hl => run_of_removed (hnext.trans htick) hl
      · obtain ⟨a', htick, hway⟩ := hfly.tick hdelta hsmooth hhead
        exact .inl ⟨a', j + 1, htick, hway⟩
    · exact .inr hend

/-- **Every flight ends** at the first cell that the projectile finds taken when it comes to it,
with an effect there exactly if that is a creature, whatever moves about in the scene meanwhile. It
takes at most 73/600 s for each cell, if every frame is shorter than 1/60 s. This is so in exact
arithmetic. -/
theorem flight_of_run (tilemapPos : Vec2) (cellPos delta : Server.Vec2Int) (dir : Int32)
    (frames : ℕ → Surroundings) (hdelta : GameObject.deltaXY dir = some delta)
    (hcell : Drawable cellPos) (hsmooth : Smooth frames) (hlong : ∀ T, ∃ k, T ≤ time frames k) :
    ∃ k i, EndsAt tilemapPos cellPos delta dir frames k i := by
  obtain ⟨k, hk⟩ := hlong ((2 ^ 25 + 2) * (73 / 600))
  rcases onWay_or_endsAt tilemapPos hdelta hcell hsmooth k with ⟨a, i, -, hway⟩ | hend
  · have htime := hway.time_le hdelta hcell
    norm_num at hk htime
    linarith
  · exact hend

/-- Three cells in a row with nobody there, at 100 frames in a second. -/
def emptyRow : Surroundings where
  scene := DevScene.init
  tilemap := ⟨⟨3, 1⟩, [[{}, {}, {}]]⟩
  deltaTime := 1 / 100

theorem flight_of_run_emptyRow : GameObject.deltaXY dirRight = some ⟨1, 0⟩ ∧
    Drawable ⟨0, 0⟩ ∧ Smooth (fun _ => emptyRow) ∧
    (∀ T, ∃ k, T ≤ time (fun _ => emptyRow) k) ∧
    ∃ k i, EndsAt ⟨0, 0⟩ ⟨0, 0⟩ ⟨1, 0⟩ dirRight (fun _ => emptyRow) k i := by
  have hcell : Drawable ⟨0, 0⟩ := by
    constructor <;> decide
  have hsmooth : Smooth (fun _ => emptyRow) := by
    refine ⟨fun _ => ?_, fun _ => ?_⟩
    · norm_num [emptyRow]
    · constructor <;> decide
  have hlong : ∀ T, ∃ k, T ≤ time (fun _ => emptyRow) k := by
    intro T
    obtain ⟨k, hk⟩ := exists_nat_ge (T * 100)
    refine ⟨k, ?_⟩
    have htime : time (fun _ => emptyRow) k = k * (1 / 100) := Mover.elapsed_const _ k
    rw [htime]
    linarith
  exact ⟨rfl, hcell, hsmooth, hlong,
    flight_of_run ⟨0, 0⟩ ⟨0, 0⟩ ⟨1, 0⟩ dirRight (fun _ => emptyRow) rfl hcell hsmooth hlong⟩

end Projectile

end Zelda.Client
