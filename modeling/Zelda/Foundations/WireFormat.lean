import Mathlib.Tactic

/-!
# The wire format

Parsing of messages that are sequences of fields, each a tag followed by its value, from an array
of bytes: variable-length integers, strings, messages with a length in front, and the fields that a
message does not know, which may be groups inside of groups.

A value is read without looking at the end of the array: the bytes behind it are 0. Only before the
next tag does the parser find out that it has gone too far, and the message keeps what was read.

`parse` is the loop over the fields of a message, with a bound on its passes; `parse_eq` says that
the bound is never reached, provided that no field leads backwards.
-/

namespace Zelda.WireFormat

variable (src : List UInt8) {v p q : ℕ}

/-! ## Values -/

def byteAt (p : ℕ) : UInt8 := src.getD p 0

/-- A little-endian number in base 128 of at most `n` bytes, and the position after it. All bytes
but the last have their high bit set. -/
def varint : ℕ → ℕ → Option (ℕ × ℕ)
  | 0, _ => none
  | n + 1, p =>
    let byte := (byteAt src p).toNat
    if byte < 128 then some (byte, p + 1)
    else (varint n (p + 1)).map fun r => (byte - 128 + 128 * r.1, r.2)

theorem varint_advances {n : ℕ} (h : varint src n p = some (v, q)) : p < q := by
  induction n generalizing p v with
  | zero => cases h
  | succ n ih =>
    simp only [varint] at h
    split at h
    · obtain ⟨-, rfl⟩ := Prod.mk.inj (Option.some.inj h)
      exact Nat.lt_succ_self p
    · obtain ⟨⟨v', q'⟩, hrest, heq⟩ := Option.map_eq_some_iff.1 h
      obtain ⟨-, rfl⟩ := Prod.mk.inj heq
      exact (Nat.lt_succ_self p).trans (ih hrest)

/-- `ReadTag` -/
def readTag (p : ℕ) : Option (ℕ × ℕ) := (varint src 5 p).map fun r => (r.1 % 2 ^ 32, r.2)

/-- `ReadVarint64` -/
def readVarint64 (p : ℕ) : Option (UInt64 × ℕ) :=
  (varint src 10 p).map fun r => (UInt64.ofNat r.1, r.2)

/-- `ReadVarint32` -/
def readVarint32 (p : ℕ) : Option (UInt32 × ℕ) :=
  (varint src 10 p).map fun r => (UInt32.ofNat r.1, r.2)

/-- `ReadSize`, at most `INT_MAX - kSlopBytes` -/
def readSize (p : ℕ) : Option (ℕ × ℕ) :=
  (varint src 5 p).filter fun r => r.1 ≤ 2 ^ 31 - 1 - 16

/-- `InlineGreedyStringParser`. A string that goes on behind the end fails here; the source may
find that out before the next tag only. -/
def readString (p : ℕ) : Option (List UInt8 × ℕ) :=
  (readSize src p).bind fun r =>
    if r.2 + r.1 ≤ src.length then some ((src.drop r.2).take r.1, r.2 + r.1) else none

variable {src}

theorem readTag_advances {tag : ℕ} (h : readTag src p = some (tag, q)) : p < q := by
  obtain ⟨⟨v, q'⟩, hv, heq⟩ := Option.map_eq_some_iff.1 h
  obtain ⟨-, rfl⟩ := Prod.mk.inj heq
  exact varint_advances src hv

theorem readVarint64_advances {v : UInt64} (h : readVarint64 src p = some (v, q)) : p < q := by
  obtain ⟨⟨v, q'⟩, hv, heq⟩ := Option.map_eq_some_iff.1 h
  obtain ⟨-, rfl⟩ := Prod.mk.inj heq
  exact varint_advances src hv

theorem readVarint32_advances {v : UInt32} (h : readVarint32 src p = some (v, q)) : p < q := by
  obtain ⟨⟨v, q'⟩, hv, heq⟩ := Option.map_eq_some_iff.1 h
  obtain ⟨-, rfl⟩ := Prod.mk.inj heq
  exact varint_advances src hv

theorem readSize_advances {size : ℕ} (h : readSize src p = some (size, q)) : p < q :=
  varint_advances src (Option.filter_eq_some_iff.1 h).1

theorem readString_advances {s : List UInt8} (h : readString src p = some (s, q)) : p < q := by
  obtain ⟨⟨size, q'⟩, hsize, hrest⟩ := Option.bind_eq_some_iff.1 h
  have hlt := readSize_advances hsize
  simp only at hrest
  split at hrest
  · obtain ⟨-, rfl⟩ := Prod.mk.inj (Option.some.inj hrest)
    omega
  · cases hrest

/-! ## Messages -/

/-- What `Done` finds out about a position. -/
inductive Status
  | more | atLimit | endOfStream | exceeded
  deriving DecidableEq

variable (src) in
/-- `EpsCopyInputStream::DoneWithCheck` on an array. -/
def done (limit p : ℕ) : Status :=
  if limit < p ∨ src.length < p then .exceeded
  else if p = limit then .atLimit
  else if p = src.length then .endOfStream
  else .more

/-- Where the fields of a message end, with `last_tag_minus_1_`: 0 at the limit. -/
structure Ended where
  position : ℕ
  lastTagMinus1 : ℕ

section Loop

variable {σ : Type*} (limit : ℕ) (field : ℕ → ℕ → σ → Option ℕ × σ)

variable (src) in
/-- One pass of the loop over the fields of a message, which goes on with `rest`. `field` parses the
value after a tag into the message; the message is returned with what it holds, also after a
failure. -/
def pass (rest : ℕ → σ → Option Ended × σ) (p : ℕ) (s : σ) : Option Ended × σ :=
  match done src limit p with
  | .exceeded => (none, s)
  | .atLimit => (some ⟨p, 0⟩, s)
  | .endOfStream => (some ⟨p, 1⟩, s)
  | .more =>
    match readTag src p with
    | none => (none, s)
    | some (tag, q) =>
      if tag = 0 ∨ tag % 8 = 4 then (some ⟨q, (tag + 2 ^ 32 - 1) % 2 ^ 32⟩, s)
      else
        match field tag q s with
        | (none, s) => (none, s)
        | (some r, s) => rest r s

variable (src) in
def parseN : ℕ → ℕ → σ → Option Ended × σ
  | 0 => fun _ s => (none, s)
  | n + 1 => pass src limit field (parseN n)

variable (src) in
/-- The loop over the fields of a message. Every pass takes a byte. -/
def parse (p : ℕ) (s : σ) : Option Ended × σ := parseN src limit field (src.length + 1) p s

variable {limit field}

/-- A pass depends on what follows only through the later positions. -/
theorem pass_congr (hfield : ∀ {tag q r : ℕ} {s s' : σ}, field tag q s = (some r, s') → q ≤ r)
    {rest rest' : ℕ → σ → Option Ended × σ} (h : ∀ r, p < r → rest r = rest' r) (s : σ) :
    pass src limit field rest p s = pass src limit field rest' p s := by
  unfold pass
  split
  · rfl
  · rfl
  · rfl
  · split
    · rfl
    · rename_i tag q htag
      split
      · rfl
      · split
        · rfl
        · rename_i r s' heq
          rw [h r ((readTag_advances htag).trans_le (hfield heq))]

theorem parseN_succ (hfield : ∀ {tag q r : ℕ} {s s' : σ}, field tag q s = (some r, s') → q ≤ r)
    {n : ℕ} (hn : src.length < p + n) : parseN src limit field (n + 1) p =
      parseN src limit field n p := by
  induction n generalizing p with
  | zero =>
    have hexceeded : done src limit p = .exceeded := if_pos (.inr hn)
    funext s
    simp [parseN, pass, hexceeded]
  | succ n ih =>
    funext s
    exact pass_congr hfield (fun r hr => ih (by omega)) s

/-- **The loop has all the passes it needs**: it goes on after each as if it began there. -/
theorem parse_eq (hfield : ∀ {tag q r : ℕ} {s s' : σ}, field tag q s = (some r, s') → q ≤ r) :
    parse src limit field p = pass src limit field (parse src limit field) p := by
  funext s
  exact pass_congr hfield (fun r hr => (parseN_succ hfield (by omega)).symm) s

/-- The loop ends behind where it begins. -/
theorem parse_advances (hfield : ∀ {tag q r : ℕ} {s s' : σ}, field tag q s = (some r, s') → q ≤ r)
    {s s' : σ} {e : Ended} (h : parse src limit field p s = (some e, s')) : p ≤ e.position := by
  unfold parse at h
  generalize src.length + 1 = n at h
  induction n generalizing p s with
  | zero => cases h
  | succ n ih =>
    simp only [parseN, pass] at h
    split at h
    · cases h
    · cases h
      exact le_refl p
    · cases h
      exact le_refl p
    · split at h
      · cases h
      · rename_i tag q htag
        have hlt := readTag_advances htag
        split at h
        · cases h
          exact hlt.le
        · split at h
          · cases h
          · rename_i r s₁ heq
            exact (hlt.le.trans (hfield heq)).trans (ih h)

end Loop

/-! ## Fields -/

variable (src) in
/-- `ParseContext::ParseMessage`, with the depth that is left. -/
def parseMessage {σ : Type*} (internalParse : ℕ → ℕ → ℕ → σ → Option Ended × σ) (depth p : ℕ)
    (s : σ) : Option ℕ × σ :=
  match readSize src p with
  | none => (none, s)
  | some (size, q) =>
    match depth with
    | 0 => (none, s)
    | depth + 1 =>
      match internalParse depth (q + size) q s with
      | (some e, s) => (if e.lastTagMinus1 = 0 then some e.position else none, s)
      | (none, s) => (none, s)

variable (src) in
/-- `FieldParser`, for a field that is not known: its value is passed over. -/
def fieldParser (parseGroup : ℕ → ℕ → Option ℕ) (tag p : ℕ) : Option ℕ :=
  if tag / 8 = 0 then none
  else
    match tag % 8 with
    | 0 => (readVarint64 src p).map Prod.snd
    | 1 => some (p + 8)
    | 2 => (readString src p).map Prod.snd
    | 3 => parseGroup tag p
    | 5 => some (p + 4)
    | _ => none

variable (src) in
/-- `UnknownFieldParse`, with the depth that is left for groups. A group ends at the tag that
belongs to its first one. -/
def unknownFieldParse (limit : ℕ) : ℕ → ℕ → ℕ → Option ℕ
  | 0 => fieldParser src fun _ _ => none
  | depth + 1 => fieldParser src fun startTag p =>
    match (parse src limit (fun tag p s => (unknownFieldParse limit depth tag p, s)) p ()).1 with
    | none => none
    | some e => if e.lastTagMinus1 = startTag then some e.position else none

theorem fieldParser_advances {parseGroup : ℕ → ℕ → Option ℕ}
    (hgroup : ∀ {tag p q : ℕ}, parseGroup tag p = some q → p ≤ q) {tag : ℕ}
    (h : fieldParser src parseGroup tag p = some q) : p ≤ q := by
  unfold fieldParser at h
  split at h
  · cases h
  · split at h
    · obtain ⟨⟨v, q'⟩, hread, rfl⟩ := Option.map_eq_some_iff.1 h
      exact (readVarint64_advances hread).le
    · cases h
      exact Nat.le_add_right p 8
    · obtain ⟨⟨str, q'⟩, hread, rfl⟩ := Option.map_eq_some_iff.1 h
      exact (readString_advances hread).le
    · exact hgroup h
    · cases h
      exact Nat.le_add_right p 4
    · cases h

theorem unknownFieldParse_advances {limit depth tag : ℕ}
    (h : unknownFieldParse src limit depth tag p = some q) : p ≤ q := by
  induction depth generalizing tag p q with
  | zero => exact fieldParser_advances (fun {_ _ _} h => by cases h) h
  | succ depth ih =>
    refine fieldParser_advances (fun {startTag p q} hgroup => ?_) h
    cases hparse : parse src limit (fun tag p s => (unknownFieldParse src limit depth tag p, s)) p ()
      with
    | mk ended u =>
      rw [hparse] at hgroup
      cases ended with
      | none => cases hgroup
      | some e =>
        simp only at hgroup
        split at hgroup
        · cases hgroup
          exact parse_advances (fun hfield => ih (Prod.mk.inj hfield).1) hparse
        · cases hgroup

theorem parseMessage_advances {σ : Type*} {internalParse : ℕ → ℕ → ℕ → σ → Option Ended × σ}
    (hinner : ∀ {depth limit p : ℕ} {s s' : σ} {e : Ended},
      internalParse depth limit p s = (some e, s') → p ≤ e.position) {depth : ℕ} {s s' : σ}
    (h : parseMessage src internalParse depth p s = (some q, s')) : p ≤ q := by
  unfold parseMessage at h
  split at h
  · cases h
  · rename_i size q' hsize
    cases depth with
    | zero => cases h
    | succ depth =>
      simp only at h
      split at h
      · rename_i e s₁ hinternal
        obtain ⟨hend, rfl⟩ := Prod.mk.inj h
        split at hend
        · cases hend
          exact (readSize_advances hsize).le.trans (hinner hinternal)
        · cases hend
      · cases h

end Zelda.WireFormat
