import Mathlib.Tactic

/-!
# Flipbooks

A `FlipbookActor` shows the frames of a flipbook one after the other. Its index counts from the
first frame of the flipbook, as the frame that `Render` draws and the number of frames in `Tick`
have it, but the two tests for the end compare it with the last frame itself.

`animationEnds_iff`: an animation that does not loop ends exactly if its first frame is frame 0. With
another first frame the index starts over before it gets to the number of the last one.

`P` is the type of pointers to flipbooks, and `F` stands for `float`: how sums and quotients are
rounded does not matter.
-/

namespace Zelda.Client

variable {P F : Type*}

/-- `FlipbookInfo`, less what `Render` draws with; `last` is its `end`. -/
structure FlipbookInfo (F : Type*) where
  start : Int32 := 0
  last : Int32 := 0
  duration : F
  loop : Bool := true

namespace FlipbookInfo

/-- What `Tick` counts modulo. -/
def frameCount (info : FlipbookInfo F) : Int32 := info.last - info.start + 1

/-- How long `Tick` shows a frame. -/
def delta [Div F] [IntCast F] (info : FlipbookInfo F) : F :=
  info.duration / (info.frameCount.toInt : F)

end FlipbookInfo

/-- `class FlipbookActor` -/
structure FlipbookActor (P F : Type*) [Zero F] where
  flipbook : Option P := none
  sumTime : F := 0
  idx : Int32 := 0

namespace FlipbookActor

section Methods

variable [Zero F]

/-- `FlipbookActor::Reset` -/
def reset (a : FlipbookActor P F) : FlipbookActor P F := { a with sumTime := 0, idx := 0 }

/-- `FlipbookActor::SetFlipbook`, which compares pointers. -/
def setFlipbook [DecidableEq P] (a : FlipbookActor P F) (flipbook : Option P) : FlipbookActor P F :=
  if flipbook.isSome ∧ a.flipbook = flipbook then a else { a with flipbook }.reset

variable (getInfo : P → FlipbookInfo F)

/-- `FlipbookActor::IsAnimationEnded` -/
def isAnimationEnded (a : FlipbookActor P F) : Bool :=
  match a.flipbook with
  | none => true
  | some flipbook => (getInfo flipbook).loop = false ∧ a.idx = (getInfo flipbook).last

/-- The frame that `Render` draws. -/
def frame (a : FlipbookActor P F) : Int32 :=
  match a.flipbook with
  | none => a.idx
  | some flipbook => (getInfo flipbook).start + a.idx

theorem isAnimationEnded_iff {getInfo : P → FlipbookInfo F} {flipbook : P}
    {a : FlipbookActor P F} (h : a.flipbook = some flipbook) :
    a.isAnimationEnded getInfo = true ↔
      (getInfo flipbook).loop = false ∧ a.idx = (getInfo flipbook).last := by
  simp only [isAnimationEnded, h, decide_eq_true_eq]

variable [Add F] [LE F] [DecidableLE F] [Div F] [IntCast F]

/-- `FlipbookActor::Tick` -/
def tick (a : FlipbookActor P F) (deltaTime : F) : FlipbookActor P F :=
  match a.flipbook with
  | none => a
  | some flipbook =>
    let info := getInfo flipbook
    if info.loop = false ∧ a.idx = info.last then a
    else
      let sumTime := a.sumTime + deltaTime
      if info.delta ≤ sumTime then { a with sumTime := 0, idx := (a.idx + 1) % info.frameCount }
      else { a with sumTime }

/-- The ticks of some frames. -/
def ticks (a : FlipbookActor P F) (times : List F) : FlipbookActor P F :=
  times.foldl (tick getInfo) a

/-- The number of ticks that move the index. -/
def advances (a : FlipbookActor P F) : List F → ℕ
  | [] => 0
  | deltaTime :: times =>
    (if (a.tick getInfo deltaTime).idx = a.idx then 0 else 1) +
      advances (a.tick getInfo deltaTime) times

/-- What is called on an actor. -/
inductive Call (P F : Type*)
  | setFlipbook (flipbook : Option P)
  | reset
  | tick (deltaTime : F)

/-- The actor after a call. -/
def apply [DecidableEq P] (a : FlipbookActor P F) : Call P F → FlipbookActor P F
  | .setFlipbook flipbook => a.setFlipbook flipbook
  | .reset => a.reset
  | .tick deltaTime => a.tick getInfo deltaTime

/-- The frames stay within the flipbook and are not skipped, and the animation is over, for good,
when the index has moved as often as there are frames after the first. -/
structure Plays (flipbook : P) (a : FlipbookActor P F) (times : List F) : Prop where
  start_le : (getInfo flipbook).start ≤ (a.ticks getInfo times).frame getInfo
  le_last : (a.ticks getInfo times).frame getInfo ≤ (getInfo flipbook).last
  next : ∀ deltaTime, ((a.ticks getInfo times).tick getInfo deltaTime).idx =
      (a.ticks getInfo times).idx ∨
    ((a.ticks getInfo times).tick getInfo deltaTime).idx.toInt =
      (a.ticks getInfo times).idx.toInt + 1
  ended : (getInfo flipbook).last.toInt - (getInfo flipbook).start.toInt ≤
      a.advances getInfo times →
    ∀ more, ((a.ticks getInfo times).ticks getInfo more).isAnimationEnded getInfo = true ∧
      ((a.ticks getInfo times).ticks getInfo more).frame getInfo = (getInfo flipbook).last

/-! ## One tick -/

variable {getInfo} {flipbook : P} {a : FlipbookActor P F} {deltaTime : F}

@[simp] theorem flipbook_tick (a : FlipbookActor P F) (deltaTime : F) :
    (a.tick getInfo deltaTime).flipbook = a.flipbook := by
  unfold tick
  split
  · rfl
  · dsimp only
    split_ifs <;> rfl

/-- A tick leaves the index or moves it, and then the animation was not over. -/
theorem idx_tick_cases (h : a.flipbook = some flipbook) :
    (a.tick getInfo deltaTime).idx = a.idx ∨
      ¬ ((getInfo flipbook).loop = false ∧ a.idx = (getInfo flipbook).last) ∧
        (a.tick getInfo deltaTime).idx = (a.idx + 1) % (getInfo flipbook).frameCount := by
  rw [tick, h]
  dsimp only
  split_ifs with hend htime
  · exact .inl rfl
  · exact .inr ⟨hend, rfl⟩
  · exact .inl rfl

/-- A tick does nothing once the animation has ended. -/
theorem tick_of_ended (h : a.isAnimationEnded getInfo = true) (deltaTime : F) :
    a.tick getInfo deltaTime = a := by
  cases hf : a.flipbook with
  | none => rw [tick, hf]
  | some flipbook =>
    rw [isAnimationEnded_iff hf] at h
    simp only [tick, hf, if_pos h]

theorem ticks_of_ended (h : a.isAnimationEnded getInfo = true) (times : List F) :
    a.ticks getInfo times = a := by
  induction times with
  | nil => rfl
  | cons deltaTime times ih =>
    rw [ticks, List.foldl_cons, tick_of_ended h]
    exact ih

end Methods

end FlipbookActor

namespace FlipbookInfo

/-- With fewer frames shown than there are, the next index is the next number. -/
theorem toInt_next {info : FlipbookInfo F} {idx : Int32} (hstart : 0 ≤ info.start.toInt)
    (h0 : 0 ≤ idx.toInt) (hidx : idx.toInt < info.last.toInt - info.start.toInt) :
    ((idx + 1) % info.frameCount).toInt = idx.toInt + 1 := by
  have h₁ := info.last.toInt_lt
  have hone : (1 : Int32).toInt = 1 := rfl
  have hnext : (idx + 1).toInt = idx.toInt + 1 := by
    rw [Int32.toInt_add, hone, Int.bmod_eq_of_le (by omega) (by omega)]
  have hsub : (info.last - info.start).toInt = info.last.toInt - info.start.toInt := by
    rw [Int32.toInt_sub, Int.bmod_eq_of_le (by omega) (by omega)]
  rw [Int32.toInt_mod, hnext, frameCount, Int32.toInt_add, hone, hsub]
  -- With `INT_MAX + 1` frames the number of frames is `INT_MIN`, and the remainder the same.
  rcases lt_or_ge (info.last.toInt - info.start.toInt + 1) (2 ^ 31) with hlt | hge
  · rw [Int.bmod_eq_of_le (by omega) (by omega), Int.tmod_eq_of_lt (by omega) (by omega)]
  · have hcount : (info.last.toInt - info.start.toInt + 1).bmod (2 ^ 32) = -2 ^ 31 := by
      rw [show info.last.toInt - info.start.toInt + 1 = 2 ^ 31 by omega]
      rfl
    rw [hcount, Int.tmod_neg, Int.tmod_eq_of_lt (by omega) (by omega)]

end FlipbookInfo

namespace FlipbookActor

section FirstFrame

/-! ## Flipbooks that start at frame 0 -/

variable [Zero F] {getInfo : P → FlipbookInfo F} {flipbook : P} {a : FlipbookActor P F}

/-- If the actor shows the flipbook, then one of its frames. -/
def Within (getInfo : P → FlipbookInfo F) (flipbook : P) (a : FlipbookActor P F) : Prop :=
  a.flipbook = some flipbook → 0 ≤ a.idx.toInt ∧ a.idx.toInt ≤ (getInfo flipbook).last.toInt

theorem within_of_idx_eq_zero (hlast : 0 ≤ (getInfo flipbook).last.toInt) (h : a.idx = 0) :
    Within getInfo flipbook a := by
  intro _
  rw [h]
  exact ⟨le_rfl, hlast⟩

theorem Within.setFlipbook [DecidableEq P] (hlast : 0 ≤ (getInfo flipbook).last.toInt)
    (hwithin : Within getInfo flipbook a) (flipbook' : Option P) :
    Within getInfo flipbook (a.setFlipbook flipbook') := by
  unfold FlipbookActor.setFlipbook
  split_ifs
  · exact hwithin
  · exact within_of_idx_eq_zero hlast rfl

theorem frame_of_start (h : a.flipbook = some flipbook)
    (hstart : (getInfo flipbook).start = 0) : a.frame getInfo = a.idx := by
  simp only [frame, h, hstart, Int32.zero_add]

variable [Add F] [LE F] [DecidableLE F] [Div F] [IntCast F]

/-- A tick leaves the index or adds one to it. -/
theorem toInt_idx_tick (hstart : (getInfo flipbook).start = 0)
    (hloop : (getInfo flipbook).loop = false) (h : a.flipbook = some flipbook)
    (hwithin : Within getInfo flipbook a) (deltaTime : F) :
    (a.tick getInfo deltaTime).idx = a.idx ∨
      (a.tick getInfo deltaTime).idx.toInt = a.idx.toInt + 1 ∧
        a.idx.toInt < (getInfo flipbook).last.toInt := by
  obtain ⟨h0, hle⟩ := hwithin h
  have hzero : (getInfo flipbook).start.toInt = 0 := by
    rw [hstart]
    rfl
  refine (idx_tick_cases h).imp_right ?_
  rintro ⟨hend, hidx⟩
  have hlt : a.idx.toInt < (getInfo flipbook).last.toInt :=
    lt_of_le_of_ne hle fun heq => hend ⟨hloop, Int32.toInt_inj.1 heq⟩
  refine ⟨?_, hlt⟩
  rw [hidx, FlipbookInfo.toInt_next hzero.ge h0 (by omega)]

theorem Within.tick (hstart : (getInfo flipbook).start = 0)
    (hloop : (getInfo flipbook).loop = false) (hwithin : Within getInfo flipbook a)
    (deltaTime : F) : Within getInfo flipbook (a.tick getInfo deltaTime) := by
  intro h
  rw [flipbook_tick] at h
  have h0 := hwithin h
  rcases toInt_idx_tick hstart hloop h hwithin deltaTime with heq | ⟨hnext, hlt⟩
  · rwa [heq]
  · omega

theorem Within.apply [DecidableEq P] (hstart : (getInfo flipbook).start = 0)
    (hlast : 0 ≤ (getInfo flipbook).last.toInt) (hloop : (getInfo flipbook).loop = false)
    (hwithin : Within getInfo flipbook a) (call : Call P F) :
    Within getInfo flipbook (a.apply getInfo call) := by
  cases call with
  | setFlipbook flipbook' => exact hwithin.setFlipbook hlast flipbook'
  | reset => exact within_of_idx_eq_zero hlast rfl
  | tick deltaTime => exact hwithin.tick hstart hloop deltaTime

theorem Within.run [DecidableEq P] (hstart : (getInfo flipbook).start = 0)
    (hlast : 0 ≤ (getInfo flipbook).last.toInt) (hloop : (getInfo flipbook).loop = false)
    (calls : List (Call P F)) (hwithin : Within getInfo flipbook a) :
    Within getInfo flipbook (calls.foldl (FlipbookActor.apply getInfo) a) := by
  induction calls generalizing a with
  | nil => exact hwithin
  | cons call calls ih => exact ih (hwithin.apply hstart hlast hloop call)

/-- The index counts the ticks that moved it. -/
theorem idx_ticks (hstart : (getInfo flipbook).start = 0)
    (hloop : (getInfo flipbook).loop = false) (h : a.flipbook = some flipbook)
    (hwithin : Within getInfo flipbook a) (times : List F) :
    (a.ticks getInfo times).flipbook = some flipbook ∧
      (a.ticks getInfo times).idx.toInt = a.idx.toInt + a.advances getInfo times ∧
      Within getInfo flipbook (a.ticks getInfo times) := by
  induction times generalizing a with
  | nil => exact ⟨h, by simp [ticks, advances], hwithin⟩
  | cons deltaTime times ih =>
    obtain ⟨hflipbook, hidx, hrange⟩ := ih (a := a.tick getInfo deltaTime)
      (by rw [flipbook_tick, h]) (hwithin.tick hstart hloop deltaTime)
    refine ⟨hflipbook, ?_, hrange⟩
    change ((a.tick getInfo deltaTime).ticks getInfo times).idx.toInt = _
    rw [hidx, advances]
    rcases toInt_idx_tick hstart hloop h hwithin deltaTime with heq | ⟨hnext, -⟩
    · rw [if_pos heq, heq, Nat.zero_add]
    · have hne : (a.tick getInfo deltaTime).idx ≠ a.idx := by
        intro heq
        rw [heq] at hnext
        omega
      rw [if_neg hne, hnext]
      push_cast
      omega

/-- An actor that shows a frame of the flipbook plays on to the end. -/
theorem Within.plays (hstart : (getInfo flipbook).start = 0)
    (hloop : (getInfo flipbook).loop = false) (h : a.flipbook = some flipbook)
    (hwithin : Within getInfo flipbook a) (times : List F) :
    Plays getInfo flipbook a times := by
  obtain ⟨hflipbook, hidx, hrange⟩ := idx_ticks hstart hloop h hwithin times
  have hframe := frame_of_start hflipbook hstart
  obtain ⟨h0, hle⟩ := hrange hflipbook
  have hzero : (getInfo flipbook).start.toInt = 0 := by
    rw [hstart]
    rfl
  refine ⟨?_, ?_, ?_, ?_⟩
  · rw [hframe, Int32.le_iff_toInt_le, hzero]
    exact h0
  · rw [hframe, Int32.le_iff_toInt_le]
    exact hle
  · exact fun deltaTime =>
      (toInt_idx_tick hstart hloop hflipbook hrange deltaTime).imp_right And.left
  · intro hadvances more
    have hfirst := (hwithin h).1
    have hlast : (a.ticks getInfo times).idx = (getInfo flipbook).last :=
      Int32.toInt_inj.1 (by omega)
    have hended := (isAnimationEnded_iff hflipbook).2 ⟨hloop, hlast⟩
    rw [ticks_of_ended hended, hframe]
    exact ⟨hended, hlast⟩

end FirstFrame

/-! ## Flipbooks that start later -/

section LaterFrame

variable [AddZeroClass F] [Preorder F] [DecidableLE F] [Div F] [IntCast F]
variable {getInfo : P → FlipbookInfo F} {flipbook : P} {a : FlipbookActor P F}

/-- A frame that was shown for its time is followed by the next one. -/
theorem tick_delta (hstart : 0 < (getInfo flipbook).start.toInt)
    (h : a.flipbook = some flipbook) (hsum : a.sumTime = 0) (h0 : 0 ≤ a.idx.toInt)
    (hidx : a.idx.toInt < (getInfo flipbook).last.toInt - (getInfo flipbook).start.toInt) :
    (a.tick getInfo (getInfo flipbook).delta).sumTime = 0 ∧
      (a.tick getInfo (getInfo flipbook).delta).idx.toInt = a.idx.toInt + 1 := by
  have hend : ¬ ((getInfo flipbook).loop = false ∧ a.idx = (getInfo flipbook).last) := by
    rintro ⟨-, heq⟩
    rw [heq] at hidx
    omega
  have htime : (getInfo flipbook).delta ≤ a.sumTime + (getInfo flipbook).delta := by
    rw [hsum, zero_add]
  simp only [tick, h, if_neg hend, if_pos htime, true_and]
  exact FlipbookInfo.toInt_next hstart.le h0 hidx

/-- When every frame is shown for its time, the index gets as far as there are frames after the
first, and no further. -/
theorem ticks_replicate_delta (hstart : 0 < (getInfo flipbook).start.toInt) (n : ℕ)
    (h : a.flipbook = some flipbook) (hsum : a.sumTime = 0) (h0 : 0 ≤ a.idx.toInt)
    (hidx : a.idx.toInt + n ≤
      (getInfo flipbook).last.toInt - (getInfo flipbook).start.toInt) :
    (a.ticks getInfo (List.replicate n (getInfo flipbook).delta)).flipbook = some flipbook ∧
      (a.ticks getInfo (List.replicate n (getInfo flipbook).delta)).idx.toInt =
        a.idx.toInt + n ∧
      a.advances getInfo (List.replicate n (getInfo flipbook).delta) = n := by
  induction n generalizing a with
  | zero => exact ⟨h, by simp [ticks], rfl⟩
  | succ n ih =>
    push_cast at hidx
    obtain ⟨hsum', hnext⟩ := tick_delta hstart h hsum h0 (by omega)
    have hne : (a.tick getInfo (getInfo flipbook).delta).idx ≠ a.idx := by
      intro heq
      rw [heq] at hnext
      omega
    obtain ⟨hflipbook, hticks, hadvances⟩ := ih (a := a.tick getInfo (getInfo flipbook).delta)
      (by rw [flipbook_tick, h]) hsum' (by omega) (by omega)
    refine ⟨hflipbook, ?_, ?_⟩
    · change ((a.tick getInfo _).ticks getInfo (List.replicate n _)).idx.toInt = _
      rw [hticks, hnext]
      push_cast
      omega
    · rw [List.replicate_succ, advances, if_neg hne, hadvances]
      omega

end LaterFrame

end FlipbookActor

open FlipbookActor

/-! ## Animations -/

/-- Whatever was called on an actor before, once it is given the flipbook it plays it to its end. -/
def AnimationEnds [DecidableEq P] [Zero F] [Add F] [LE F] [DecidableLE F] [Div F] [IntCast F]
    (getInfo : P → FlipbookInfo F) (flipbook : P) : Prop :=
  ∀ (calls : List (Call P F)) (times : List F),
    Plays getInfo flipbook ((calls.foldl (apply getInfo) {}).setFlipbook (some flipbook)) times

theorem FlipbookActor.flipbook_setFlipbook [DecidableEq P] [Zero F] (a : FlipbookActor P F)
    (flipbook : P) : (a.setFlipbook (some flipbook)).flipbook = some flipbook := by
  unfold setFlipbook
  split_ifs with h
  · exact h.2
  · rfl

section

variable [DecidableEq P] {getInfo : P → FlipbookInfo F} {flipbook : P}

theorem animationEnds_of_start [Zero F] [Add F] [LE F] [DecidableLE F] [Div F] [IntCast F]
    (hstart : (getInfo flipbook).start = 0) (hlast : 0 ≤ (getInfo flipbook).last.toInt)
    (hloop : (getInfo flipbook).loop = false) : AnimationEnds getInfo flipbook := by
  intro calls times
  have hwithin : Within getInfo flipbook (calls.foldl (apply getInfo) {}) :=
    Within.run hstart hlast hloop calls (within_of_idx_eq_zero hlast rfl)
  exact (hwithin.setFlipbook hlast (some flipbook)).plays hstart hloop
    (flipbook_setFlipbook _ flipbook) times

variable [AddZeroClass F] [Preorder F] [DecidableLE F] [Div F] [IntCast F]

/-- A new actor that shows each frame for its time is at the last frame, and not at the end. -/
theorem not_animationEnds_of_start_pos (hpos : 0 < (getInfo flipbook).start.toInt)
    (hle : (getInfo flipbook).start.toInt ≤ (getInfo flipbook).last.toInt) :
    ¬ AnimationEnds getInfo flipbook := by
  intro hends
  obtain ⟨n, hn⟩ : ∃ n : ℕ,
      (n : ℤ) = (getInfo flipbook).last.toInt - (getInfo flipbook).start.toInt :=
    ⟨_, Int.toNat_of_nonneg (by omega)⟩
  let a := ({} : FlipbookActor P F).setFlipbook (some flipbook)
  have hplays : Plays getInfo flipbook a (List.replicate n (getInfo flipbook).delta) :=
    hends [] _
  have ha : a = { flipbook := some flipbook } := if_neg (by simp)
  have hfirst : a.idx.toInt = 0 := by
    rw [ha]
    rfl
  obtain ⟨hflipbook, hidx, hadvances⟩ := ticks_replicate_delta hpos n (a := a)
    (by rw [ha]) (by rw [ha]) hfirst.ge (by omega)
  obtain ⟨hended, -⟩ := hplays.ended (by omega) []
  obtain ⟨-, hlast⟩ := (isAnimationEnded_iff hflipbook).1 hended
  change (a.ticks getInfo _).idx = _ at hlast
  rw [hlast] at hidx
  omega

/-- **A non-looping animation ends** exactly if its first frame is frame 0. -/
theorem animationEnds_iff (getInfo : P → FlipbookInfo F) (flipbook : P)
    (h0 : 0 ≤ (getInfo flipbook).start)
    (hle : (getInfo flipbook).start ≤ (getInfo flipbook).last)
    (hloop : (getInfo flipbook).loop = false) :
    AnimationEnds getInfo flipbook ↔ (getInfo flipbook).start = 0 := by
  rw [Int32.le_iff_toInt_le] at h0 hle
  change 0 ≤ _ at h0
  constructor
  · intro hends
    by_contra hne
    have hpos : 0 < (getInfo flipbook).start.toInt :=
      lt_of_le_of_ne h0 fun h => hne (Int32.toInt_inj.1 h.symm)
    exact not_animationEnds_of_start_pos hpos hle hends
  · exact fun hstart => animationEnds_of_start hstart (h0.trans hle) hloop

end

/-- `FB_Hit` -/
def hitInfo : FlipbookInfo ℚ where
  last := 5
  duration := 1 / 2
  loop := false

theorem animationEnds_iff_hit : 0 ≤ hitInfo.start ∧ hitInfo.start ≤ hitInfo.last ∧
    hitInfo.loop = false ∧ (AnimationEnds (fun _ : Unit => hitInfo) () ↔ hitInfo.start = 0) :=
  ⟨by decide, by decide, rfl,
    animationEnds_iff (fun _ : Unit => hitInfo) () (by decide) (by decide) rfl⟩

/-- The second and third frame of a strip. -/
def laterInfo : FlipbookInfo ℚ where
  start := 1
  last := 2
  duration := 1 / 2
  loop := false

theorem not_animationEnds_later : 0 ≤ laterInfo.start ∧ laterInfo.start ≤ laterInfo.last ∧
    laterInfo.loop = false ∧ 0 < laterInfo.duration ∧
      ¬ AnimationEnds (fun _ : Unit => laterInfo) () :=
  ⟨by decide, by decide, rfl, one_half_pos, not_animationEnds_of_start_pos (by decide) (by decide)⟩

end Zelda.Client
