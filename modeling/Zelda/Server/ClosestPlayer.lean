import Mathlib.Data.List.MinMax
import Zelda.Server.Cells

/-!
# The closest player

`GameRoom::FindClosestPlayer` takes the first of the players whose squared distance is least. The
square is computed with `int32` and kept as a `float`, so of the true square it sees what is left of
it modulo 2³², rounded to 24 bits (`seen`).

Main result: `findsClosest_iff`. The player found is a nearest one if and only if some nearest
player is also seen as the nearest, before all that are found first.
-/

namespace Zelda.Server

open Protocol
open Std (ExtTreeMap)

variable {r : GameRoom} {pos c : Vec2Int} {id : ObjectId}

/-! ## Squared distances -/

/-- The square of the distance, which does not wrap around. -/
def squaredDistance (a b : Vec2Int) : ℤ :=
  (a.x.toInt - b.x.toInt) ^ 2 + (a.y.toInt - b.y.toInt) ^ 2

/-- A squared distance as an `int32` that is kept as a `float`. -/
def seen (distance : ℤ) : ℤ := Binary32.ofInt (distance.bmod (2 ^ 32))

/-- Subtracting, squaring and adding wrap around as a whole. -/
theorem toInt_lengthSquared_sub (a b : Vec2Int) :
    (a - b).lengthSquared.toInt = (squaredDistance a b).bmod (2 ^ 32) := by
  rw [Vec2Int.lengthSquared, Vec2Int.sub_def, squaredDistance, pow_two, pow_two]
  simp only [Int32.toInt_add, Int32.toInt_mul, Int32.toInt_sub, Int.bmod_mul_bmod,
    Int.mul_bmod_bmod, Int.bmod_add_bmod, Int.add_bmod_bmod]

theorem squaredDistance_nonneg (a b : Vec2Int) : 0 ≤ squaredDistance a b :=
  add_nonneg (sq_nonneg _) (sq_nonneg _)

/-- Up to 24 bits nothing is lost. -/
theorem seen_of_lt {distance : ℤ} (h₀ : 0 ≤ distance) (h : distance < 2 ^ 24) :
    seen distance = distance := by
  rw [seen, Int.bmod_eq_of_le (by omega) (by omega), Binary32.ofInt_of_natAbs_lt (by omega)]

/-! ## The loop -/

/-- In an ordered list the earlier of two elements is the lesser one. -/
theorem eq_or_rel_of_idxOf_le {α : Type*} [DecidableEq α] {R : α → α → Prop} {l : List α}
    (hl : l.Pairwise R) {a b : α} (ha : a ∈ l) (hb : b ∈ l) (hle : l.idxOf a ≤ l.idxOf b) :
    a = b ∨ R a b := by
  rcases hle.lt_or_eq with hlt | heq
  · have hpair := List.pairwise_iff_getElem.1 hl _ _ (List.idxOf_lt_length_iff.2 ha)
      (List.idxOf_lt_length_iff.2 hb) hlt
    rw [List.getElem_idxOf, List.getElem_idxOf] at hpair
    exact .inr hpair
  · exact .inl ((List.idxOf_inj ha).1 heq)

/-- What the loop compares. -/
def dist (pos : Vec2Int) (item : ObjectId × Player) : ℤ :=
  seen (squaredDistance pos item.2.info.getCellPos)

/-- The variables of the loop, when it has kept this entry. -/
def kept (pos : Vec2Int) : Option (ObjectId × Player) → ℤ × Option ObjectId
  | none => (Binary32.fltMax, none)
  | some item => (dist pos item, some item.1)

theorem closer_kept (best : Option (ObjectId × Player)) (item : ObjectId × Player) :
    GameRoom.closer pos (kept pos best) item =
      kept pos (List.argAux (fun a b => dist pos a < dist pos b) best item) := by
  have hdist : Binary32.ofInt (pos - item.2.info.getCellPos).lengthSquared.toInt =
      dist pos item := by
    rw [toInt_lengthSquared_sub]
    rfl
  have hlt := Binary32.ofInt_lt_fltMax (pos - item.2.info.getCellPos).lengthSquared
  rw [GameRoom.closer, hdist]
  rw [hdist] at hlt
  cases best with
  | none => exact if_pos hlt
  | some b =>
    simp only [List.argAux]
    by_cases h : dist pos item < dist pos b
    · rw [if_pos h]
      exact if_pos h
    · rw [if_neg h]
      exact if_neg h

/-- **`FindClosestPlayer` returns the first entry of least distance.** -/
theorem findClosestPlayer_eq (r : GameRoom) (pos : Vec2Int) :
    r.findClosestPlayer pos = (r.players.toList.argmin (dist pos)).map Prod.fst := by
  have hfold : r.players.toList.foldl (GameRoom.closer pos) (kept pos none) =
      kept pos (r.players.toList.argmin (dist pos)) :=
    List.foldl_hom (kept pos) closer_kept
  have hsnd : ∀ best, (kept pos best).2 = best.map Prod.fst := by
    intro best
    cases best <;> rfl
  rw [← hsnd, ← hfold]
  rfl

/-- There is nobody to be found. -/
def GameRoom.NoPlayers (r : GameRoom) : Prop := ∀ id, id ∉ r.players

theorem findClosestPlayer_eq_none : r.findClosestPlayer pos = none ↔ r.NoPlayers := by
  rw [findClosestPlayer_eq, Option.map_eq_none_iff, List.argmin_eq_none, GameRoom.NoPlayers]
  constructor
  · intro h id hid
    rw [← ExtTreeMap.mem_keys, ← ExtTreeMap.map_fst_toList_eq_keys, h] at hid
    cases hid
  · intro h
    refine List.eq_nil_iff_forall_not_mem.2 fun item hitem => h item.1 ?_
    rw [← ExtTreeMap.mem_keys, ← ExtTreeMap.map_fst_toList_eq_keys]
    exact List.mem_map_of_mem hitem

theorem mem_toList_players {p : Player} (h : (id, p) ∈ r.players.toList) :
    r.cells (.player id) = some p.info.getCellPos := by
  rw [ExtTreeMap.mem_toList_iff_getElem?_eq_some] at h
  exact GameRoom.cells_of_info? (GameRoom.info?_of_player h)

theorem exists_mem_toList (h : r.cells (.player id) = some c) :
    ∃ p, (id, p) ∈ r.players.toList ∧ p.info.getCellPos = c := by
  obtain ⟨info, hinfo, rfl⟩ := GameRoom.cells_eq_some.1 h
  rw [GameRoom.info?_player] at hinfo
  obtain ⟨p, hp, rfl⟩ := Option.map_eq_some_iff.1 hinfo
  exact ⟨p, ExtTreeMap.mem_toList_iff_getElem?_eq_some.2 hp, rfl⟩

/-- Player `id` is on `c`, is not seen farther away than anybody, and is seen nearer than those who
come before. -/
def SeenClosest (r : GameRoom) (pos : Vec2Int) (id : ObjectId) (c : Vec2Int) : Prop :=
  r.cells (.player id) = some c ∧ ∀ k c', r.cells (.player k) = some c' →
    seen (squaredDistance pos c) ≤ seen (squaredDistance pos c') ∧
      (k < id → seen (squaredDistance pos c) < seen (squaredDistance pos c'))

theorem seenClosest_of_findClosestPlayer (h : r.findClosestPlayer pos = some id) :
    ∃ c, SeenClosest r pos id c := by
  rw [findClosestPlayer_eq] at h
  obtain ⟨⟨_, p⟩, hmin, rfl⟩ := Option.map_eq_some_iff.1 h
  obtain ⟨hmem, hle, hidx⟩ := List.argmin_eq_some_iff.1 hmin
  refine ⟨p.info.getCellPos, mem_toList_players hmem, fun k c' hc' => ?_⟩
  obtain ⟨p', hmem', rfl⟩ := exists_mem_toList hc'
  refine ⟨hle (k, p') hmem', fun hk => lt_of_not_ge fun hnear => ?_⟩
  -- a player seen as near comes later
  rcases eq_or_rel_of_idxOf_le ExtTreeMap.ordered_keys_toList hmem hmem'
    (hidx (k, p') hmem' hnear) with heq | hlt
  · exact absurd (Prod.mk.inj heq).1 hk.ne'
  · exact absurd (Nat.compare_eq_lt.1 hlt) (not_lt.2 hk.le)

theorem SeenClosest.unique {id' : ObjectId} {c' : Vec2Int} (h : SeenClosest r pos id c)
    (h' : SeenClosest r pos id' c') : id = id' := by
  rcases lt_trichotomy id id' with hlt | heq | hgt
  · exact absurd ((h'.2 id c h.1).2 hlt) (not_lt.2 (h.2 id' c' h'.1).1)
  · exact heq
  · exact absurd ((h.2 id' c' h'.1).2 hgt) (not_lt.2 (h'.2 id c h.1).1)

/-! ## The closest player -/

/-- Player `id` is on `c`, and no player is nearer to `pos`. -/
def Closest (r : GameRoom) (pos : Vec2Int) (id : ObjectId) (c : Vec2Int) : Prop :=
  r.cells (.player id) = some c ∧ ∀ k c', r.cells (.player k) = some c' →
    squaredDistance pos c ≤ squaredDistance pos c'

/-- Nobody is found exactly where there is nobody, and else a closest player. -/
def FindsClosest (r : GameRoom) (pos : Vec2Int) : Prop :=
  (r.findClosestPlayer pos = none ↔ r.NoPlayers) ∧
    ∀ id, r.findClosestPlayer pos = some id → ∃ c, Closest r pos id c

/-- **A closest player is found** if and only if there is nobody to be found, or a closest player is
also seen as closest. -/
theorem findsClosest_iff (r : GameRoom) (pos : Vec2Int) :
    FindsClosest r pos ↔
      r.NoPlayers ∨ ∃ id c, Closest r pos id c ∧ SeenClosest r pos id c := by
  constructor
  · rintro ⟨hnone, hsome⟩
    cases hfound : r.findClosestPlayer pos with
    | none => exact .inl (hnone.1 hfound)
    | some id =>
      obtain ⟨c, hclosest⟩ := hsome id hfound
      obtain ⟨c', hseen⟩ := seenClosest_of_findClosestPlayer hfound
      obtain rfl := Option.some.inj (hclosest.1.symm.trans hseen.1)
      exact .inr ⟨id, c, hclosest, hseen⟩
  · intro h
    refine ⟨findClosestPlayer_eq_none, fun id hfound => ?_⟩
    obtain ⟨c, hseen⟩ := seenClosest_of_findClosestPlayer hfound
    rcases h with hno | ⟨id', c', hclosest, hseen'⟩
    · rw [findClosestPlayer_eq_none.2 hno] at hfound
      cases hfound
    · obtain rfl := hseen'.unique hseen
      exact ⟨c', hclosest⟩

/-- **Near enough players are told apart**: up to 24 bits of squared distance. -/
theorem findsClosest_of_lt (h : ∀ k c, r.cells (.player k) = some c →
    squaredDistance pos c < 2 ^ 24) : FindsClosest r pos := by
  refine ⟨findClosestPlayer_eq_none, fun id hfound => ?_⟩
  obtain ⟨c, hc, hall⟩ := seenClosest_of_findClosestPlayer hfound
  refine ⟨c, hc, fun k c' hc' => ?_⟩
  have hle := (hall k c' hc').1
  rwa [seen_of_lt (squaredDistance_nonneg pos c) (h id c hc),
    seen_of_lt (squaredDistance_nonneg pos c') (h k c' hc')] at hle

/-- Two players, with ids 2 and 3. -/
def twoPlayers (a b : Vec2Int) : GameRoom :=
  let player id c := { createPlayer id 0 with info := (createPlayer id 0).info.setCellPos c }
  (({} : GameRoom).addPlayer (player 2 a)).addPlayer (player 3 b)

theorem not_findsClosest_of_nearer (id k : ObjectId) (c c' : Vec2Int)
    (hfound : r.findClosestPlayer pos = some id) (hc : r.cells (.player id) = some c)
    (hc' : r.cells (.player k) = some c') (hlt : squaredDistance pos c' < squaredDistance pos c) :
    ¬ FindsClosest r pos := by
  intro h
  obtain ⟨c₁, hc₁, hall⟩ := h.2 id hfound
  obtain rfl := Option.some.inj (hc.symm.trans hc₁)
  exact absurd (hall k c' hc') (not_le.2 hlt)

/-- **The player found may be farther away than another one**: one who is 2¹⁶ cells away is seen at
distance 0, and 2²⁴ + 1 is rounded to 2²⁴. -/
theorem not_findsClosest : ¬ FindsClosest (twoPlayers ⟨5, 5⟩ ⟨65544, 8⟩) ⟨8, 8⟩ ∧
    ¬ FindsClosest (twoPlayers ⟨4096, 1⟩ ⟨4096, 0⟩) ⟨0, 0⟩ :=
  ⟨not_findsClosest_of_nearer 3 2 ⟨65544, 8⟩ ⟨5, 5⟩ (by decide +kernel) (by decide +kernel)
      (by decide +kernel) (by decide +kernel),
    not_findsClosest_of_nearer 2 3 ⟨4096, 1⟩ ⟨4096, 0⟩ (by decide +kernel) (by decide +kernel)
      (by decide +kernel) (by decide +kernel)⟩

end Zelda.Server
