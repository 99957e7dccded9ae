import Mathlib.Tactic

/-!
# Numbers in text streams

`std::ostream::operator<<` and `std::istream::operator>>` for `int32`, in the classic locale, and
reading the rest of a stream character by character.

* `getInt_putInt`: a number that was written is read back, whatever follows it, as long as that does
  not start with a digit.
* `getWord_of_word`: so is a word, up to the next white space.
* `digitValues_layer`, `getElem?_rows`: numbers of one digit written row by row, without anything
  between them, are found again by their index.
-/

namespace Zelda.TextStream

/-- `std::isspace` -/
def isSpace (c : Char) : Bool := c = ' ' ∨ 9 ≤ c.toNat ∧ c.toNat ≤ 13

/-- What is left of an input stream, and `failbit`. -/
structure InStream where
  rest : List Char
  fail : Bool := false
  deriving DecidableEq, Repr

/-- `ostream << x` -/
def putInt (x : Int32) : List Char :=
  if x.toInt < 0 then '-' :: Nat.toDigits 10 x.toInt.natAbs else Nat.toDigits 10 x.toInt.natAbs

/-- The number that digits stand for. Out of range it is the nearest number there is, and the
extraction fails. -/
def ofDigits (negative : Bool) (digits : List Char) : Int32 × Bool :=
  let n : ℤ := Nat.ofDigitChars 10 digits 0
  let n := if negative then -n else n
  if n < -2 ^ 31 then (Int32.minValue, true)
  else if 2 ^ 31 ≤ n then (Int32.maxValue, true)
  else (Int32.ofInt n, false)

/-- The number at the front of a text, with its first character given. -/
def scanInt (c : Char) (l : List Char) : Int32 × InStream :=
  let l := if c = '-' ∨ c = '+' then l else c :: l
  let digits := l.takeWhile Char.isDigit
  let rest := l.dropWhile Char.isDigit
  if digits = [] then (0, ⟨rest, true⟩)
  else
    let n := ofDigits (c = '-') digits
    (n.1, ⟨rest, n.2⟩)

/-- `istream >> var`: the new value of `var`. White space is skipped; where the stream ends there,
or has failed before, `var` keeps its value. -/
def InStream.getInt (s : InStream) (var : Int32) : Int32 × InStream :=
  if s.fail then (var, s)
  else
    match s.rest.dropWhile isSpace with
    | [] => (var, ⟨[], true⟩)
    | c :: l => scanInt c l

/-- `istream >> str` for an empty string: the next word, or nothing. -/
def InStream.getWord (s : InStream) : List Char × InStream :=
  let l := s.rest.dropWhile isSpace
  if s.fail ∨ l = [] then ([], ⟨l, true⟩)
  else (l.takeWhile fun c => !isSpace c, ⟨l.dropWhile fun c => !isSpace c, false⟩)

/-- A character of the format of `sscanf` that stands for itself. -/
def scanChar (c : Char) : List Char → Option (List Char)
  | [] => none
  | d :: l => if d = c then some l else none

/-- `%d` in the format of `sscanf`, for numbers in range. -/
def scanD (l : List Char) : Option (Int32 × List Char) :=
  match l.dropWhile isSpace with
  | [] => none
  | c :: l =>
    let x := scanInt c l
    if x.2.fail then none else some (x.1, x.2.rest)

/-- `while (ifs.get(ch))`: the characters the loop sees. -/
def InStream.getAll (s : InStream) : List Char := if s.fail then [] else s.rest

/-! ## Numbers -/

theorem isDigit_of_mem_toDigits {n : ℕ} {c : Char} (h : c ∈ Nat.toDigits 10 n) :
    c.isDigit = true := Nat.isDigit_of_mem_toDigits (by decide) (by decide) h

theorem isSpace_of_isDigit {c : Char} (h : c.isDigit = true) : isSpace c = false := by
  rw [Char.isDigit_iff_toNat] at h
  obtain ⟨hlo, -⟩ := h
  have h0 : '0'.toNat = 48 := rfl
  have hspace : c ≠ ' ' := by
    rintro rfl
    exact absurd hlo (by decide)
  simp only [isSpace, decide_eq_false_iff_not, not_or, not_and]
  exact ⟨hspace, by omega⟩

theorem ofDigits_toDigits (x : Int32) :
    ofDigits (decide (x.toInt < 0)) (Nat.toDigits 10 x.toInt.natAbs) = (x, false) := by
  have h₁ := x.le_toInt
  have h₂ := x.toInt_lt
  have hsign : (if decide (x.toInt < 0) = true then -(x.toInt.natAbs : ℤ) else x.toInt.natAbs) =
      x.toInt := by
    split
    · rename_i h
      have := of_decide_eq_true h
      omega
    · rename_i h
      have : ¬ x.toInt < 0 := fun hlt => h (decide_eq_true hlt)
      omega
  simp only [ofDigits, Nat.ofDigitChars_ten_toDigits, hsign]
  rw [if_neg (by omega), if_neg (by omega), Int32.ofInt_toInt]

theorem takeWhile_toDigits {n : ℕ} {l : List Char} (hl : ∀ c ∈ l.head?, c.isDigit = false) :
    (Nat.toDigits 10 n ++ l).takeWhile Char.isDigit = Nat.toDigits 10 n := by
  rw [List.takeWhile_append_of_pos fun c hc => isDigit_of_mem_toDigits hc]
  cases l with
  | nil => simp
  | cons c l => rw [List.takeWhile_cons_of_neg (by simp [hl c rfl]), List.append_nil]

theorem dropWhile_toDigits {n : ℕ} {l : List Char} (hl : ∀ c ∈ l.head?, c.isDigit = false) :
    (Nat.toDigits 10 n ++ l).dropWhile Char.isDigit = l := by
  rw [List.dropWhile_append_of_pos fun c hc => isDigit_of_mem_toDigits hc]
  cases l with
  | nil => rfl
  | cons c l => rw [List.dropWhile_cons_of_neg (by simp [hl c rfl])]

theorem scanInt_of_digits {c : Char} {l m : List Char} {n : ℕ} (hm : ∀ c ∈ m.head?, c.isDigit = false)
    (h : (if c = '-' ∨ c = '+' then l else c :: l) = Nat.toDigits 10 n ++ m) :
    scanInt c l = ((ofDigits (c = '-') (Nat.toDigits 10 n)).1,
      ⟨m, (ofDigits (c = '-') (Nat.toDigits 10 n)).2⟩) := by
  rw [scanInt, h, takeWhile_toDigits hm, dropWhile_toDigits hm]
  exact if_neg Nat.toDigits_ne_nil

/-- What `putInt` writes is a number that starts with no space. -/
theorem exists_putInt (x : Int32) {l : List Char} (hl : ∀ c ∈ l.head?, c.isDigit = false) :
    ∃ c m, putInt x ++ l = c :: m ∧ isSpace c = false ∧ scanInt c m = (x, ⟨l, false⟩) := by
  have hvalue := ofDigits_toDigits x
  by_cases hneg : x.toInt < 0
  · refine ⟨'-', Nat.toDigits 10 x.toInt.natAbs ++ l, ?_, by decide, ?_⟩
    · rw [putInt, if_pos hneg, List.cons_append]
    · rw [decide_eq_true hneg] at hvalue
      rw [scanInt_of_digits hl (if_pos (.inl rfl)), decide_eq_true rfl, hvalue]
  · obtain ⟨c, m, hm⟩ := List.exists_cons_of_ne_nil
      (Nat.toDigits_ne_nil (n := x.toInt.natAbs) (b := 10))
    have hc : c.isDigit = true := isDigit_of_mem_toDigits (hm ▸ List.mem_cons_self)
    have hminus : c ≠ '-' := by
      rintro rfl
      exact absurd hc (by decide)
    have hplus : c ≠ '+' := by
      rintro rfl
      exact absurd hc (by decide)
    refine ⟨c, m ++ l, ?_, isSpace_of_isDigit hc, ?_⟩
    · rw [putInt, if_neg hneg, hm, List.cons_append]
    · have hfront : (if c = '-' ∨ c = '+' then m ++ l else c :: (m ++ l)) =
          Nat.toDigits 10 x.toInt.natAbs ++ l := by
        rw [if_neg (by simp [hminus, hplus]), hm, List.cons_append]
      rw [decide_eq_false hneg] at hvalue
      rw [scanInt_of_digits hl hfront, decide_eq_false hminus, hvalue]

/-- **A number is read back**, behind white space and in front of anything but a digit. -/
theorem getInt_putInt (x var : Int32) {spaces l : List Char}
    (hspaces : ∀ c ∈ spaces, isSpace c = true) (hl : ∀ c ∈ l.head?, c.isDigit = false) :
    InStream.getInt ⟨spaces ++ (putInt x ++ l), false⟩ var = (x, ⟨l, false⟩) := by
  obtain ⟨c, m, hput, hc, hscan⟩ := exists_putInt x hl
  have hskip : (spaces ++ (putInt x ++ l)).dropWhile isSpace = c :: m := by
    rw [List.dropWhile_append_of_pos hspaces, hput, List.dropWhile_cons_of_neg (by simp [hc])]
  rw [InStream.getInt, if_neg Bool.false_ne_true, hskip]
  exact hscan

theorem scanD_putInt (x : Int32) {c : Char} (hc : c.isDigit = false) (l : List Char) :
    scanD (putInt x ++ c :: l) = some (x, c :: l) := by
  obtain ⟨d, m, hput, hd, hscan⟩ := exists_putInt x (l := c :: l) (by simpa using hc)
  rw [scanD, hput, List.dropWhile_cons_of_neg (by simp [hd])]
  simp only [hscan]
  rfl

@[simp] theorem scanChar_self (c : Char) (l : List Char) : scanChar c (c :: l) = some l :=
  if_pos rfl

/-! ## Negative numbers -/

/-- `istream >> var` leaves `var` negative: it is negative before and nothing is read, or what is read
is a minus in front of digits that are not all 0. -/
def InStream.readsNegative (s : InStream) (var : Int32) : Bool :=
  if s.fail then var < 0
  else
    match s.rest.dropWhile isSpace with
    | [] => var < 0
    | c :: l => c = '-' ∧ (l.takeWhile Char.isDigit).any (· ≠ '0')

theorem ofDigitChars_pos_iff {l : List Char} (h : ∀ c ∈ l, c.isDigit = true) :
    0 < Nat.ofDigitChars 10 l 0 ↔ ∃ c ∈ l, c ≠ '0' := by
  induction l with
  | nil => simp
  | cons c l ih =>
    have hc := h c List.mem_cons_self
    have hzero : c.toNat - '0'.toNat = 0 ↔ c = '0' := by
      rw [Char.isDigit_iff_toNat] at hc
      obtain ⟨hlo, -⟩ := hc
      constructor
      · intro heq
        exact Char.toNat_inj.1 (by omega)
      · rintro rfl
        rfl
    rw [Nat.ofDigitChars_cons, Nat.ofDigitChars_eq_ofDigitChars_zero, List.exists_mem_cons_iff,
      ← ih fun c hc => h c (List.mem_cons_of_mem _ hc), Nat.mul_zero, Nat.zero_add,
      Nat.add_pos_iff_pos_or_pos, Nat.mul_pos_iff_of_pos_left (Nat.pow_pos (by decide)),
      Nat.pos_iff_ne_zero, ne_eq, hzero]

theorem ofDigits_lt_zero_iff {negative : Bool} {l : List Char} (h : ∀ c ∈ l, c.isDigit = true) :
    (ofDigits negative l).1.toInt < 0 ↔ negative = true ∧ ∃ c ∈ l, c ≠ '0' := by
  rw [← ofDigitChars_pos_iff h]
  have hmin : Int32.minValue.toInt < 0 := by decide
  have hmax : ¬ Int32.maxValue.toInt < 0 := by decide
  cases negative with
  | false =>
    simp only [ofDigits, Bool.false_eq_true, if_false, false_and, iff_false]
    split_ifs with hlow hhigh
    · exact absurd hlow (by omega)
    · exact hmax
    · rw [Int32.toInt_ofInt_of_le (by omega) (by omega)]
      omega
  | true =>
    simp only [ofDigits, if_true, true_and]
    split_ifs with hlow hhigh
    · simp only [hmin, true_iff]
      omega
    · omega
    · rw [Int32.toInt_ofInt_of_le (by omega) (by omega)]
      omega

theorem scanInt_lt_zero_iff {c : Char} {l : List Char} : (scanInt c l).1.toInt < 0 ↔
    c = '-' ∧ (l.takeWhile Char.isDigit).any (· ≠ '0') = true := by
  have hdigits : ∀ l : List Char, ∀ d ∈ l.takeWhile Char.isDigit, d.isDigit = true :=
    fun l => List.all_eq_true.1 List.all_takeWhile
  by_cases hc : c = '-'
  · subst hc
    simp only [scanInt, true_or, if_true, true_and, decide_true]
    split_ifs with hempty
    · simp [hempty]
    · simp only [ofDigits_lt_zero_iff (hdigits _), true_and, List.any_eq_true, decide_eq_true_eq]
  · simp only [scanInt, hc, false_or, false_and, decide_false, iff_false]
    have hzero : ¬ (0 : Int32).toInt < 0 := by decide
    have hpos : ∀ l : List Char, ¬ (ofDigits false (l.takeWhile Char.isDigit)).1.toInt < 0 := by
      intro l
      simp [ofDigits_lt_zero_iff (hdigits l)]
    split_ifs
    · exact hzero
    · exact hpos l
    · exact hzero
    · exact hpos (c :: l)

theorem getInt_lt_zero_iff {s : InStream} {var : Int32} :
    (s.getInt var).1.toInt < 0 ↔ s.readsNegative var = true := by
  have hvar : var.toInt < 0 ↔ var < 0 := by rw [Int32.lt_iff_toInt_lt, Int32.toInt_zero]
  unfold InStream.getInt InStream.readsNegative
  split_ifs
  · rw [hvar, decide_eq_true_iff]
  · split
    · rw [hvar, decide_eq_true_iff]
    · rw [scanInt_lt_zero_iff, decide_eq_true_iff]

/-! ## Words -/

theorem isSpace_of_mem_putInt {x : Int32} {c : Char} (h : c ∈ putInt x) : isSpace c = false := by
  unfold putInt at h
  split at h
  · rcases List.mem_cons.1 h with rfl | h
    · decide
    · exact isSpace_of_isDigit (isDigit_of_mem_toDigits h)
  · exact isSpace_of_isDigit (isDigit_of_mem_toDigits h)

/-- **A word is read back**, behind white space and in front of white space or the end. -/
theorem getWord_of_word {spaces word l : List Char} (hspaces : ∀ c ∈ spaces, isSpace c = true)
    (hne : word ≠ []) (hword : ∀ c ∈ word, isSpace c = false)
    (hl : ∀ c ∈ l.head?, isSpace c = true) :
    InStream.getWord ⟨spaces ++ (word ++ l), false⟩ = (word, ⟨l, false⟩) := by
  have hskip : (spaces ++ (word ++ l)).dropWhile isSpace = word ++ l := by
    rw [List.dropWhile_append_of_pos hspaces]
    cases word with
    | nil => exact absurd rfl hne
    | cons c word =>
      rw [List.cons_append, List.dropWhile_cons_of_neg (by simp [hword c List.mem_cons_self])]
  have htake : (word ++ l).takeWhile (fun c => !isSpace c) = word := by
    rw [List.takeWhile_append_of_pos fun c hc => by simp [hword c hc]]
    cases l with
    | nil => simp
    | cons c l => rw [List.takeWhile_cons_of_neg (by simp [hl c rfl]), List.append_nil]
  have hdrop : (word ++ l).dropWhile (fun c => !isSpace c) = l := by
    rw [List.dropWhile_append_of_pos fun c hc => by simp [hword c hc]]
    cases l with
    | nil => rfl
    | cons c l => rw [List.dropWhile_cons_of_neg (by simp [hl c rfl])]
  simp only [InStream.getWord, hskip, htake, hdrop]
  exact if_neg (by simp [hne])

/-! ## Digits without anything between them -/

/-- The numbers of a table, row by row, each row with a line break. -/
def layer (height width : ℕ) (f : ℕ → ℕ → Int32) : List Char :=
  (List.range height).flatMap fun y =>
    ((List.range width).flatMap fun x => putInt (f y x)) ++ ['\n']

/-- The digits among the characters, as numbers. -/
def digitValues (l : List Char) : List Int32 :=
  (l.filter Char.isDigit).map fun c => Int32.ofNat (c.toNat - '0'.toNat)

/-- A number of one digit. -/
def IsDigit (x : Int32) : Prop := 0 ≤ x.toInt ∧ x.toInt < 10

instance (x : Int32) : Decidable (IsDigit x) := inferInstanceAs (Decidable (_ ∧ _))

theorem digitValues_append (l m : List Char) :
    digitValues (l ++ m) = digitValues l ++ digitValues m := by
  rw [digitValues, List.filter_append, List.map_append, digitValues, digitValues]

theorem digitValues_flatMap {α : Type*} (l : List α) (f : α → List Char) :
    digitValues (l.flatMap f) = l.flatMap fun a => digitValues (f a) := by
  induction l with
  | nil => rfl
  | cons a l ih => rw [List.flatMap_cons, List.flatMap_cons, digitValues_append, ih]

theorem isDigit_of_mem_digitValues {x : Int32} {l : List Char} (h : x ∈ digitValues l) :
    IsDigit x := by
  obtain ⟨c, hc, rfl⟩ := List.mem_map.1 h
  have hdigit := (List.mem_filter.1 hc).2
  rw [Char.isDigit_iff_toNat] at hdigit
  have h0 : '0'.toNat = 48 := rfl
  have h9 : '9'.toNat = 57 := rfl
  rw [IsDigit, Int32.toInt_ofNat_of_lt (by omega)]
  omega

/-- A number of one digit is written as that digit. -/
theorem digitValues_putInt {x : Int32} (hx : IsDigit x) : digitValues (putInt x) = [x] := by
  obtain ⟨h₁, h₂⟩ := hx
  have hn : x.toInt.natAbs < 10 := by omega
  rw [putInt, if_neg (by omega), Nat.toDigits_of_lt_base hn, digitValues,
    List.filter_cons_of_pos (by simp [Nat.isDigit_digitChar, hn]), List.filter_nil, List.map_singleton]
  have hvalue : (Nat.digitChar x.toInt.natAbs).toNat - '0'.toNat = x.toInt.natAbs :=
    Nat.toNat_digitChar_sub_48_of_lt_ten hn
  rw [hvalue, List.singleton_inj, ← Int32.toInt_inj, Int32.toInt_ofNat_of_lt (by omega)]
  omega

theorem digitValues_layer {height width : ℕ} {f : ℕ → ℕ → Int32}
    (hf : ∀ y < height, ∀ x < width, IsDigit (f y x)) :
    digitValues (layer height width f) =
      (List.range height).flatMap fun y => (List.range width).map (f y) := by
  have hbreak : digitValues ['\n'] = [] := rfl
  rw [layer, digitValues_flatMap]
  refine List.flatMap_congr fun y hy => ?_
  rw [digitValues_append, hbreak, List.append_nil, digitValues_flatMap, List.map_eq_flatMap]
  exact List.flatMap_congr fun x hx =>
    digitValues_putInt (hf y (List.mem_range.1 hy) x (List.mem_range.1 hx))

theorem length_rows {α : Type*} (height width : ℕ) (f : ℕ → ℕ → α) :
    ((List.range height).flatMap fun y => (List.range width).map (f y)).length = height * width := by
  induction height with
  | zero => simp
  | succ n ih =>
    rw [List.range_succ, List.flatMap_append, List.length_append, ih]
    simp [Nat.succ_mul]

/-- The entry of a table at its index in the list of the rows. -/
theorem getElem?_rows {α : Type*} {height width : ℕ} (f : ℕ → ℕ → α) {y x : ℕ} (hy : y < height)
    (hx : x < width) :
    ((List.range height).flatMap fun y => (List.range width).map (f y))[y * width + x]? =
      some (f y x) := by
  induction height with
  | zero => omega
  | succ n ih =>
    rw [List.range_succ, List.flatMap_append]
    have hlen := length_rows n width f
    rcases Nat.lt_succ_iff_lt_or_eq.1 hy with h | rfl
    · rw [List.getElem?_append_left, ih h]
      rw [hlen]
      calc y * width + x < y * width + width := by omega
        _ = (y + 1) * width := by rw [Nat.succ_mul]
        _ ≤ n * width := Nat.mul_le_mul_right _ h
    · rw [List.getElem?_append_right (by omega), hlen, Nat.add_sub_cancel_left]
      simp [List.getElem?_range hx]

end Zelda.TextStream
