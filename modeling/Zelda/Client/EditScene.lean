import Zelda.Foundations.TextStream

/-!
# Saving and loading lines in the editor

`EditScene::Update` writes its lines with the middle of their extent moved to the origin, and reads
them with the origin moved to the middle of the window. The text is read back as it was written
(`load_save`), so all that can change is where the lines are.

The middle is half the sum of the least and the greatest coordinate, rounded towards zero. After one
round the sum is 800, 799 or 801 (600, 599 or 601 for y), and only at 799 (or 599) does the next round
move the lines by one more. That is the case if the sum was negative and odd: `stable_iff`.
-/

namespace Zelda.Client.EditScene

open TextStream

/-- `POINT`, whose numbers have 32 bits. -/
structure Point where
  x : Int32
  y : Int32
  deriving DecidableEq, Repr

/-- The two ends of a line. -/
abbrev Line := Point × Point

/-! ## Save -/

/-- `minX` and `minY`, for the coordinate `f`. -/
def lowest (f : Point → Int32) (lines : List Line) : Int32 :=
  lines.foldl (fun m line => min (min m (f line.1)) (f line.2)) Int32.maxValue

/-- `maxX` and `maxY` -/
def highest (f : Point → Int32) (lines : List Line) : Int32 :=
  lines.foldl (fun m line => max (max m (f line.1)) (f line.2)) Int32.minValue

/-- `midX` and `midY` -/
def mid (f : Point → Int32) (lines : List Line) : Int32 := (highest f lines + lowest f lines) / 2

/-- An end of a line with the given middle as the origin. -/
def Point.centred (p : Point) (midX midY : Int32) : Point := ⟨p.x - midX, p.y - midY⟩

/-- The text of a line. -/
def format (p q : Point) : List Char :=
  '(' :: (putInt p.x ++ ',' :: (putInt p.y ++
    [')', '-', '>', '('] ++ (putInt q.x ++ ',' :: (putInt q.y ++ [')']))))

/-- What is written for the lines after their number. -/
def body (midX midY : Int32) (lines : List Line) : List Char :=
  lines.flatMap fun line =>
    format (line.1.centred midX midY) (line.2.centred midX midY) ++ ['\n']

/-- The text that the key `S` writes. -/
def save (lines : List Line) : List Char :=
  putInt (Int32.ofNat lines.length) ++
    '\n' :: body (mid Point.x lines) (mid Point.y lines) lines

/-! ## Load -/

/-- `swscanf_s(str, L"(%d,%d)->(%d,%d)", ..)`; `none` if it leaves a number unread. What follows the
last number makes no difference. -/
def scanLine (str : List Char) : Option Line := do
  let l ← scanChar '(' str
  let (x₁, l) ← scanD l
  let l ← scanChar ',' l
  let (y₁, l) ← scanD l
  let l ← scanChar ')' l
  let l ← scanChar '-' l
  let l ← scanChar '>' l
  let l ← scanChar '(' l
  let (x₂, l) ← scanD l
  let l ← scanChar ',' l
  let (y₂, _) ← scanD l
  some (⟨x₁, y₁⟩, ⟨x₂, y₂⟩)

/-- An end of a line with the origin in the middle of the window. -/
def Point.shown (p : Point) : Point := ⟨p.x + 400, p.y + 300⟩

/-- The loop over the lines. -/
def loadLines : ℕ → InStream → Option (List Line)
  | 0, _ => some []
  | n + 1, s => do
    let (str, s) := s.getWord
    let line ← scanLine str
    let lines ← loadLines n s
    some ((line.1.shown, line.2.shown) :: lines)

/-- The lines that the key `D` reads; `none` if a variable is used that nothing was read into. -/
def load (text : List Char) : Option (List Line) :=
  if text.dropWhile isSpace = [] then none
  else
    let (count, s) := InStream.getInt ⟨text, false⟩ 0
    loadLines count.toInt.toNat s

/-! ## The text -/

theorem scanLine_format (p q : Point) : scanLine (format p q) = some (p, q) := by
  have hcomma : Char.isDigit ',' = false := by decide
  have hclose : Char.isDigit ')' = false := by decide
  simp only [scanLine, format, scanChar_self, Option.bind_eq_bind, Option.bind_some,
    List.append_assoc, List.cons_append, List.nil_append, scanD_putInt _ hcomma,
    scanD_putInt _ hclose]

theorem isSpace_of_mem_format {p q : Point} {c : Char} (h : c ∈ format p q) :
    isSpace c = false := by
  have hput : ∀ x : Int32, c ∈ putInt x → isSpace c = false := fun _ => isSpace_of_mem_putInt
  simp only [format, List.mem_append, List.mem_cons, List.not_mem_nil, or_false] at h
  rcases h with rfl | h | rfl | (h | rfl | rfl | rfl | rfl) | h | rfl | h | rfl <;>
  first | exact hput _ h | decide

/-- The lines are read as they were written. -/
theorem loadLines_body (midX midY : Int32) (lines : List Line) :
    loadLines lines.length ⟨'\n' :: body midX midY lines, false⟩ =
      some (lines.map fun line =>
        ((line.1.centred midX midY).shown, (line.2.centred midX midY).shown)) := by
  induction lines with
  | nil => rfl
  | cons line lines ih =>
    let word := format (line.1.centred midX midY) (line.2.centred midX midY)
    have hword : InStream.getWord ⟨['\n'] ++ (word ++ '\n' :: body midX midY lines), false⟩ =
        (word, ⟨'\n' :: body midX midY lines, false⟩) :=
      getWord_of_word (List.forall_mem_singleton.2 rfl) (List.cons_ne_nil _ _) (fun c => isSpace_of_mem_format)
        (by simp; decide)
    have htext : ('\n' :: body midX midY (line :: lines)) =
        ['\n'] ++ (word ++ '\n' :: body midX midY lines) := by
      simp [body, word]
    have hscan : scanLine word = some (line.1.centred midX midY, line.2.centred midX midY) :=
      scanLine_format _ _
    rw [htext, List.length_cons, loadLines, hword]
    simp only [hscan, ih, Option.bind_eq_bind, Option.bind_some, List.map_cons]

theorem length_loadLines {n : ℕ} {s : InStream} {lines : List Line}
    (h : loadLines n s = some lines) : lines.length = n := by
  induction n generalizing s lines with
  | zero =>
    cases h
    rfl
  | succ n ih =>
    simp only [loadLines, Option.bind_eq_bind, Option.bind_eq_some_iff, Option.some.injEq] at h
    obtain ⟨line, -, rest, hrest, rfl⟩ := h
    rw [List.length_cons, ih hrest]

/-- As many lines are read as the number in front of them says. -/
theorem load_save_eq (lines : List Line) : load (save lines) =
    loadLines (Int32.ofNat lines.length).toInt.toNat
      ⟨'\n' :: body (mid Point.x lines) (mid Point.y lines) lines, false⟩ := by
  have hstop : ∀ c ∈ ('\n' :: body (mid Point.x lines) (mid Point.y lines) lines).head?,
      Char.isDigit c = false := by
    simp
  have hget : InStream.getInt ⟨[] ++ save lines, false⟩ 0 = (Int32.ofNat lines.length, ⟨'\n' ::
      body (mid Point.x lines) (mid Point.y lines) lines, false⟩) :=
    getInt_putInt (Int32.ofNat lines.length) 0 (by simp) hstop
  obtain ⟨c, m, hput, hc, -⟩ := exists_putInt (Int32.ofNat lines.length) hstop
  have hne : (save lines).dropWhile isSpace ≠ [] := by
    rw [save, hput, List.dropWhile_cons_of_neg (by simp [hc])]
    exact List.cons_ne_nil c m
  rw [List.nil_append] at hget
  rw [load, if_neg hne, hget]

/-- The lines after they were saved and loaded. -/
def reloaded (lines : List Line) : List Line :=
  lines.map fun line =>
    ((line.1.centred (mid Point.x lines) (mid Point.y lines)).shown,
      (line.2.centred (mid Point.x lines) (mid Point.y lines)).shown)

@[simp] theorem length_reloaded (lines : List Line) : (reloaded lines).length = lines.length :=
  List.length_map _

/-- **The saved text is read back**, up to the number of lines that an `int32` holds. -/
theorem load_save {lines : List Line} (h : lines.length < 2 ^ 31) :
    load (save lines) = some (reloaded lines) := by
  have hcount : (Int32.ofNat lines.length).toInt.toNat = lines.length := by
    rw [Int32.toInt_ofNat_of_lt h, Int.toNat_natCast]
  rw [load_save_eq, hcount, loadLines_body]
  rfl

theorem length_lt_of_load_save {lines lines' : List Line} (h : load (save lines) = some lines')
    (hlength : lines'.length = lines.length) : lines.length < 2 ^ 31 := by
  rw [load_save_eq] at h
  have hcount := length_loadLines h
  have hlt := (Int32.ofNat lines.length).toInt_lt
  omega

/-! ## The extent of the lines -/

/-- The coordinates of all the ends. -/
def coords (f : Point → Int32) (lines : List Line) : List Int32 :=
  lines.flatMap fun line => [f line.1, f line.2]

@[simp] theorem coords_nil (f : Point → Int32) : coords f [] = [] := rfl

theorem forall_mem_coords_cons {f : Point → Int32} {line : Line} {lines : List Line}
    {C : Int32 → Prop} : (∀ x ∈ coords f (line :: lines), C x) ↔
      C (f line.1) ∧ C (f line.2) ∧ ∀ x ∈ coords f lines, C x := by
  have hcons : coords f (line :: lines) = f line.1 :: f line.2 :: coords f lines := rfl
  rw [hcons, List.forall_mem_cons, List.forall_mem_cons]

theorem toInt_min (a b : Int32) : (min a b).toInt = min a.toInt b.toInt := by
  have hmin : min a b = if a ≤ b then a else b := rfl
  rw [hmin, min_def]
  simp only [Int32.le_iff_toInt_le]
  split <;> rfl

theorem toInt_max (a b : Int32) : (max a b).toInt = max a.toInt b.toInt := by
  have hmax : max a b = if a ≤ b then b else a := rfl
  rw [hmax, max_def]
  simp only [Int32.le_iff_toInt_le]
  split <;> rfl

theorem le_foldl_lowest (f : Point → Int32) (lines : List Line) (b : ℤ) (m : Int32) :
    b ≤ (lines.foldl (fun m line => min (min m (f line.1)) (f line.2)) m).toInt ↔
      b ≤ m.toInt ∧ ∀ x ∈ coords f lines, b ≤ x.toInt := by
  induction lines generalizing m with
  | nil => simp
  | cons line lines ih =>
    rw [List.foldl_cons, ih, toInt_min, toInt_min, le_min_iff, le_min_iff, and_assoc, and_assoc,
      forall_mem_coords_cons]

theorem foldl_highest_le (f : Point → Int32) (lines : List Line) (b : ℤ) (m : Int32) :
    (lines.foldl (fun m line => max (max m (f line.1)) (f line.2)) m).toInt ≤ b ↔
      m.toInt ≤ b ∧ ∀ x ∈ coords f lines, x.toInt ≤ b := by
  induction lines generalizing m with
  | nil => simp
  | cons line lines ih =>
    rw [List.foldl_cons, ih, toInt_max, toInt_max, max_le_iff, max_le_iff, and_assoc, and_assoc,
      forall_mem_coords_cons]

theorem exists_mem_coords {f : Point → Int32} {lines : List Line} (hne : lines ≠ []) :
    ∃ x, x ∈ coords f lines := by
  obtain ⟨line, rest, rfl⟩ := List.exists_cons_of_ne_nil hne
  exact ⟨f line.1, by simp [coords]⟩

theorem le_lowest_iff {f : Point → Int32} {lines : List Line} (hne : lines ≠ []) {b : ℤ} :
    b ≤ (lowest f lines).toInt ↔ ∀ x ∈ coords f lines, b ≤ x.toInt := by
  rw [lowest, le_foldl_lowest]
  refine ⟨And.right, fun h => ⟨?_, h⟩⟩
  obtain ⟨x, hx⟩ := exists_mem_coords (f := f) hne
  exact (h x hx).trans x.toInt_le

theorem highest_le_iff {f : Point → Int32} {lines : List Line} (hne : lines ≠ []) {b : ℤ} :
    (highest f lines).toInt ≤ b ↔ ∀ x ∈ coords f lines, x.toInt ≤ b := by
  rw [highest, foldl_highest_le]
  refine ⟨And.right, fun h => ⟨?_, h⟩⟩
  obtain ⟨x, hx⟩ := exists_mem_coords (f := f) hne
  exact x.minValue_le_toInt.trans (h x hx)

/-- The sum that the middle is half of. -/
def sum (f : Point → Int32) (lines : List Line) : ℤ :=
  (highest f lines).toInt + (lowest f lines).toInt

/-- Nothing overflows when the coordinate is moved to the origin and then to `centre`. -/
structure Fits (f : Point → Int32) (centre : ℤ) (lines : List Line) : Prop where
  sum_ge : -2 ^ 31 ≤ sum f lines
  sum_lt : sum f lines < 2 ^ 31
  coord : ∀ x ∈ coords f lines, -2 ^ 31 ≤ x.toInt - (sum f lines).tdiv 2 ∧
    x.toInt - (sum f lines).tdiv 2 + centre < 2 ^ 31

/-- All the coordinates have been moved by the same number. -/
theorem sum_of_moved {f : Point → Int32} {lines lines' : List Line} {g : Int32 → Int32} {d : ℤ}
    (hne : lines ≠ []) (hne' : lines' ≠ []) (hcoords : coords f lines' = (coords f lines).map g)
    (hg : ∀ x ∈ coords f lines, (g x).toInt = x.toInt + d) :
    sum f lines' = sum f lines + 2 * d := by
  have hlow : (lowest f lines').toInt = (lowest f lines).toInt + d := by
    refine eq_of_forall_le_iff fun b => ?_
    rw [le_lowest_iff hne', hcoords, List.forall_mem_map, ← sub_le_iff_le_add, le_lowest_iff hne]
    refine forall₂_congr fun x hx => ?_
    rw [hg x hx, sub_le_iff_le_add]
  have hhigh : (highest f lines').toInt = (highest f lines).toInt + d := by
    refine eq_of_forall_ge_iff fun b => ?_
    rw [highest_le_iff hne', hcoords, List.forall_mem_map, ← le_sub_iff_add_le, highest_le_iff hne]
    refine forall₂_congr fun x hx => ?_
    rw [hg x hx, le_sub_iff_add_le]
  rw [sum, sum, hlow, hhigh]
  ring

/-- Half a number, rounded towards zero. -/
theorem tdiv_two (s : ℤ) : s.tdiv 2 = if 0 ≤ s ∨ 2 ∣ s then s / 2 else s / 2 + 1 := by
  rw [Int.tdiv_eq_ediv]
  split_ifs
  · exact add_zero _
  · rfl

theorem toInt_mid {f : Point → Int32} {lines : List Line} (h₁ : -2 ^ 31 ≤ sum f lines)
    (h₂ : sum f lines < 2 ^ 31) : (mid f lines).toInt = (sum f lines).tdiv 2 := by
  have htwo : (2 : Int32).toInt = 2 := rfl
  have hsum : (highest f lines + lowest f lines).toInt = sum f lines := by
    rw [Int32.toInt_add, sum]
    rw [sum] at h₁ h₂
    exact Int.bmod_eq_of_le (by omega) (by omega)
  have hbound : -2 ^ 31 ≤ (sum f lines).tdiv 2 ∧ (sum f lines).tdiv 2 < 2 ^ 31 := by
    rw [tdiv_two]
    split_ifs <;> omega
  rw [mid, Int32.toInt_div, hsum, htwo, Int.bmod_eq_of_le (by omega) (by omega)]

/-- Half a sum that was moved to twice the centre is the centre, unless the sum was negative and
odd. -/
theorem tdiv_moved_iff {s centre : ℤ} (hcentre : 0 < centre) :
    (s + 2 * (centre - s.tdiv 2)).tdiv 2 = centre ↔ 0 ≤ s ∨ 2 ∣ s := by
  by_cases h : 0 ≤ s ∨ 2 ∣ s
  · have hhalf : s.tdiv 2 = s / 2 := (tdiv_two s).trans (if_pos h)
    rw [hhalf, Int.tdiv_eq_ediv_of_nonneg (by omega)]
    simp only [h, iff_true]
    omega
  · have hhalf : s.tdiv 2 = s / 2 + 1 := (tdiv_two s).trans (if_neg h)
    rw [hhalf, Int.tdiv_eq_ediv_of_nonneg (by omega)]
    simp only [h, iff_false]
    omega

/-! ## Rounds of saving and loading -/

variable {lines : List Line}

theorem coords_x_reloaded (lines : List Line) : coords Point.x (reloaded lines) =
    (coords Point.x lines).map fun x => x - mid Point.x lines + 400 := by
  simp only [coords, reloaded, List.flatMap_map, List.map_flatMap]
  rfl

theorem coords_y_reloaded (lines : List Line) : coords Point.y (reloaded lines) =
    (coords Point.y lines).map fun y => y - mid Point.y lines + 300 := by
  simp only [coords, reloaded, List.flatMap_map, List.map_flatMap]
  rfl

theorem Fits.toInt_moved {f : Point → Int32} (centre : Int32) (h : Fits f centre.toInt lines)
    (h0 : 0 ≤ centre.toInt) {x : Int32} (hx : x ∈ coords f lines) :
    (x - mid f lines + centre).toInt = x.toInt + (centre.toInt - (sum f lines).tdiv 2) := by
  obtain ⟨hlow, hhigh⟩ := h.coord x hx
  have hsub : (x - mid f lines).toInt = x.toInt - (sum f lines).tdiv 2 := by
    rw [Int32.toInt_sub, toInt_mid h.sum_ge h.sum_lt]
    exact Int.bmod_eq_of_le (by omega) (by omega)
  rw [Int32.toInt_add, hsub, Int.bmod_eq_of_le (by omega) (by omega)]
  ring

/-- The middle of lines that were moved to the centre is the centre, unless the sum was negative and
odd. -/
theorem Fits.mid_moved_iff {f : Point → Int32} {centre : Int32} {lines' : List Line}
    (h : Fits f centre.toInt lines) (hne : lines ≠ []) (hne' : lines' ≠ [])
    (h0 : 0 < centre.toInt) (hlt : centre.toInt < 2 ^ 29)
    (hcoords : coords f lines' = (coords f lines).map fun x => x - mid f lines + centre) :
    mid f lines' = centre ↔ 0 ≤ sum f lines ∨ 2 ∣ sum f lines := by
  have hsum := sum_of_moved hne hne' hcoords fun x hx => h.toInt_moved centre h0.le hx
  have hbound : -2 ^ 31 ≤ sum f lines' ∧ sum f lines' < 2 ^ 31 := by
    rw [hsum, tdiv_two]
    split_ifs <;> omega
  rw [← Int32.toInt_inj, toInt_mid hbound.1 hbound.2, hsum, tdiv_moved_iff h0]

/-- Lines stay where they are if the middle of their extent is the centre. -/
theorem reloaded_eq_self_iff (hne : lines ≠ []) :
    reloaded lines = lines ↔ mid Point.x lines = 400 ∧ mid Point.y lines = 300 := by
  have hback : ∀ a m centre : Int32, a - m + centre = a ↔ m = centre := by
    intro a m centre
    grind
  constructor
  · intro h
    obtain ⟨line, rest, hlines⟩ := List.exists_cons_of_ne_nil hne
    have hline : ((line.1.centred (mid Point.x lines) (mid Point.y lines)).shown,
        (line.2.centred (mid Point.x lines) (mid Point.y lines)).shown) = line := by
      have hhead := congrArg List.head? h
      rw [reloaded, List.head?_map, hlines] at hhead
      rw [hlines]
      exact Option.some.inj hhead
    have hx := congrArg (fun l : Line => l.1.x) hline
    have hy := congrArg (fun l : Line => l.1.y) hline
    exact ⟨(hback _ _ 400).1 hx, (hback _ _ 300).1 hy⟩
  · rintro ⟨hx, hy⟩
    have hpoint : ∀ p : Point, (p.centred 400 300).shown = p := by
      intro p
      rw [Point.centred, Point.shown, (hback p.x 400 400).2 rfl, (hback p.y 300 300).2 rfl]
    rw [reloaded, hx, hy]
    simp only [hpoint]
    exact List.map_id lines

/-- The ends of a line are moved by the same vector. -/
def Moved (dx dy : ℤ) (l l' : Line) : Prop :=
  (l'.1.x.toInt = l.1.x.toInt + dx ∧ l'.1.y.toInt = l.1.y.toInt + dy) ∧
    l'.2.x.toInt = l.2.x.toInt + dx ∧ l'.2.y.toInt = l.2.y.toInt + dy

/-- What is loaded has the same lines, all moved by one vector, and saving and loading it changes
nothing. -/
def Stable (lines : List Line) : Prop :=
  ∃ lines', load (save lines) = some lines' ∧
    (∃ dx dy, List.Forall₂ (Moved dx dy) lines lines') ∧ load (save lines') = some lines'

theorem moved_reloaded (hx : Fits Point.x 400 lines) (hy : Fits Point.y 300 lines) :
    ∃ dx dy, List.Forall₂ (Moved dx dy) lines (reloaded lines) := by
  refine ⟨400 - (sum Point.x lines).tdiv 2, 300 - (sum Point.y lines).tdiv 2, ?_⟩
  rw [reloaded, List.forall₂_map_right_iff, List.forall₂_same]
  intro line hline
  have hmem : ∀ f : Point → Int32, f line.1 ∈ coords f lines ∧ f line.2 ∈ coords f lines := by
    intro f
    constructor <;> exact List.mem_flatMap.2 ⟨line, hline, by simp⟩
  exact ⟨⟨hx.toInt_moved 400 (by decide) (hmem Point.x).1,
    hy.toInt_moved 300 (by decide) (hmem Point.y).1⟩,
    hx.toInt_moved 400 (by decide) (hmem Point.x).2,
    hy.toInt_moved 300 (by decide) (hmem Point.y).2⟩

/-- **Saving and loading is stable** exactly for less than `2 ^ 31` lines with no sum of the least and
the greatest coordinate that is negative and odd. -/
theorem stable_iff (lines : List Line) (hne : lines ≠ []) (hx : Fits Point.x 400 lines)
    (hy : Fits Point.y 300 lines) : Stable lines ↔
      lines.length < 2 ^ 31 ∧ (0 ≤ sum Point.x lines ∨ 2 ∣ sum Point.x lines) ∧
        (0 ≤ sum Point.y lines ∨ 2 ∣ sum Point.y lines) := by
  have hne' : reloaded lines ≠ [] := by simpa [reloaded] using hne
  rw [← hx.mid_moved_iff hne hne' (by decide) (by decide) (coords_x_reloaded lines),
    ← hy.mid_moved_iff hne hne' (by decide) (by decide) (coords_y_reloaded lines),
    ← reloaded_eq_self_iff hne']
  constructor
  · rintro ⟨lines', hload, ⟨dx, dy, hmoved⟩, hagain⟩
    have hlt := length_lt_of_load_save hload hmoved.length_eq.symm
    rw [load_save hlt, Option.some.injEq] at hload
    subst hload
    rw [load_save (by rwa [length_reloaded]), Option.some.injEq] at hagain
    exact ⟨hlt, hagain⟩
  · rintro ⟨hlt, hself⟩
    refine ⟨reloaded lines, load_save hlt, moved_reloaded hx hy, ?_⟩
    rw [load_save (by rwa [length_reloaded]), hself]

/-- Three lines, of which one lies partly to the left of the origin. -/
def sketch : List Line := [(⟨-14, 0⟩, ⟨0, 6⟩), (⟨2, 8⟩, ⟨10, -2⟩), (⟨5, 5⟩, ⟨5, 1⟩)]

theorem stable_iff_sketch : Stable sketch := by
  have hx : Fits Point.x 400 sketch := by
    refine ⟨by decide, by decide, ?_⟩
    simp only [sketch, forall_mem_coords_cons]
    exact ⟨by decide, by decide, by decide, by decide, by decide, by decide, by simp⟩
  have hy : Fits Point.y 300 sketch := by
    refine ⟨by decide, by decide, ?_⟩
    simp only [sketch, forall_mem_coords_cons]
    exact ⟨by decide, by decide, by decide, by decide, by decide, by decide, by simp⟩
  exact (stable_iff sketch (List.cons_ne_nil _ _) hx hy).2 ⟨by decide, by decide, by decide⟩

/-- The ends are at 398 and 401 after the first round, and at 399 and 402 after the second. -/
theorem not_stable_left_of_origin : Fits Point.x 400 [(⟨-3, 0⟩, ⟨0, 0⟩)] ∧
    Fits Point.y 300 [(⟨-3, 0⟩, ⟨0, 0⟩)] ∧ ¬ Stable [(⟨-3, 0⟩, ⟨0, 0⟩)] := by
  refine ⟨⟨by decide, by decide, forall_mem_coords_cons.2 ⟨by decide, by decide, by simp⟩⟩,
    ⟨by decide, by decide, forall_mem_coords_cons.2 ⟨by decide, by decide, by simp⟩⟩, ?_⟩
  rintro ⟨lines', hload, -, hagain⟩
  rw [load_save (by decide), Option.some.injEq] at hload
  subst hload
  rw [load_save (by decide), Option.some.injEq] at hagain
  exact absurd hagain (by decide)

end Zelda.Client.EditScene
