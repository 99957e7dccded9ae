import Zelda.Foundations.WireFormat

/-!
# Writing the wire format

What is written in front of a value, and that the parser reads it back. A message is parsed as it
is written, field after field: `Consumes` says of a run of bytes what it does to the message,
wherever the bytes stand. The rules are `Consumes.nil` and `Consumes.append`, with
`Consumes.tagged` for a single field; `parse_of_consumes` is the whole message, and
`parseMessage_of_consumes` is a message inside of another.
-/

namespace Zelda.WireFormat

variable {src : List UInt8} {n m v p q : ℕ}

/-! ## Sizes -/

/-- `UnsafeVarint`, of a number that takes at most `n` bytes. -/
def varintBytes : ℕ → ℕ → List UInt8
  | 0, _ => []
  | n + 1, v =>
    if v < 128 then [UInt8.ofNat v] else UInt8.ofNat (v % 128 + 128) :: varintBytes n (v / 128)

/-- `VarintSize32` and `VarintSize64` -/
def varintSize (v : ℕ) : ℕ := ((v ||| 1).log2 * 9 + 73) / 64

theorem log2_or_one (v : ℕ) : (v ||| 1).log2 = v.log2 := by
  rcases Nat.eq_zero_or_pos v with rfl | hpos
  · rfl
  · obtain ⟨hle, hlt⟩ := (Nat.log2_eq_iff hpos.ne').1 rfl
    have hor : v ≤ v ||| 1 := Nat.left_le_or
    refine (Nat.log2_eq_iff (by omega)).2 ⟨hle.trans hor, Nat.or_lt_two_pow hlt ?_⟩
    exact Nat.one_lt_two_pow (Nat.succ_ne_zero _)

theorem log2_div_128 (h : 128 ≤ v) : v.log2 = (v / 128).log2 + 7 := by
  obtain ⟨hle, hlt⟩ := (Nat.log2_eq_iff (n := v / 128) (by omega)).1 rfl
  have hpow : ∀ k, 2 ^ (k + 7) = 2 ^ k * 128 := fun k => pow_add 2 k 7
  rw [Nat.log2_eq_iff (by omega), hpow, Nat.add_right_comm, hpow]
  omega

theorem length_varintBytes_eq_log2 (hn : 0 < n) (h : v < 128 ^ n) :
    (varintBytes n v).length = v.log2 / 7 + 1 := by
  induction n generalizing v with
  | zero => omega
  | succ n ih =>
    rw [varintBytes]
    split
    · rename_i hlt
      have hlog : v.log2 < 7 := by
        rcases Nat.eq_zero_or_pos v with rfl | hpos
        · decide
        · exact (Nat.log2_lt hpos.ne').2 hlt
      rw [List.length_singleton]
      omega
    · rename_i hge
      have hdiv : v / 128 < 128 ^ n := Nat.div_lt_of_lt_mul (by rw [← pow_succ']; exact h)
      have hn : 0 < n := by
        by_contra hn
        obtain rfl : n = 0 := by omega
        omega
      rw [List.length_cons, ih hn hdiv, log2_div_128 (by omega : 128 ≤ v)]
      omega

/-- **The size that is computed is the number of bytes that are written**: the multiplication in
place of a division by 7 is right for numbers of up to 64 bits. -/
theorem length_varintBytes (hn : 0 < n) (h : v < 128 ^ n) (h64 : v < 2 ^ 64) :
    (varintBytes n v).length = varintSize v := by
  have hlog : v.log2 < 64 := by
    rcases Nat.eq_zero_or_pos v with rfl | hpos
    · decide
    · exact (Nat.log2_lt hpos.ne').2 h64
  rw [length_varintBytes_eq_log2 hn h, varintSize, log2_or_one]
  omega

/-! ## Numbers that are read back -/

/-- The bytes stand at position `p`. -/
def At (src : List UInt8) (p : ℕ) (bytes : List UInt8) : Prop := bytes <+: src.drop p

theorem At.self : At src 0 src := by rw [At, List.drop_zero]

theorem At.append {bytes bytes' : List UInt8} (h : At src p (bytes ++ bytes')) :
    At src p bytes ∧ At src (p + bytes.length) bytes' := by
  obtain ⟨rest, hrest⟩ := h
  refine ⟨⟨bytes' ++ rest, by rw [← hrest, List.append_assoc]⟩, ⟨rest, ?_⟩⟩
  rw [← List.drop_drop, ← hrest, List.append_assoc, List.drop_left]

theorem At.le_length {bytes : List UInt8} (h : At src p bytes) (hp : p ≤ src.length) :
    p + bytes.length ≤ src.length := by
  have := h.length_le
  rw [List.length_drop] at this
  omega

theorem At.lt_length {b : UInt8} {bytes : List UInt8} (h : At src p (b :: bytes)) :
    p < src.length := by
  have := h.length_le
  rw [List.length_drop, List.length_cons] at this
  omega

theorem At.byteAt {b : UInt8} {bytes : List UInt8} (h : At src p (b :: bytes)) :
    byteAt src p = b := by
  obtain ⟨rest, hrest⟩ := h
  have hget : (src.drop p)[0]? = some b := by rw [← hrest]; rfl
  rw [List.getElem?_drop, Nat.add_zero] at hget
  rw [WireFormat.byteAt, List.getD_eq_getElem?_getD, hget, Option.getD_some]

theorem varintBytes_ne_nil (hn : 0 < n) : varintBytes n v ≠ [] := by
  obtain ⟨n, rfl⟩ := Nat.exists_eq_succ_of_ne_zero hn.ne'
  rw [varintBytes]
  split <;> exact List.cons_ne_nil _ _

/-- A number is read back, and the position is behind it. -/
theorem varint_varintBytes (hnm : n ≤ m) (hn : 0 < n) (h : v < 128 ^ n)
    (hat : At src p (varintBytes n v)) :
    varint src m p = some (v, p + (varintBytes n v).length) := by
  induction n generalizing m v p with
  | zero => omega
  | succ n ih =>
    obtain ⟨m, rfl⟩ := Nat.exists_eq_add_of_le' (show 1 ≤ m by omega)
    rw [varintBytes] at hat ⊢
    rw [varint]
    split at hat
    · rename_i hlt
      have hbyte : (UInt8.ofNat v).toNat = v := by
        rw [UInt8.toNat_ofNat']
        exact Nat.mod_eq_of_lt (by omega)
      rw [hat.byteAt, if_pos hlt, hbyte, if_pos hlt, List.length_singleton]
    · rename_i hge
      have hbyte : (UInt8.ofNat (v % 128 + 128)).toNat = v % 128 + 128 := by
        rw [UInt8.toNat_ofNat']
        exact Nat.mod_eq_of_lt (by omega)
      have hdiv : v / 128 < 128 ^ n := Nat.div_lt_of_lt_mul (by rw [← pow_succ']; exact h)
      have hn : 0 < n := by
        by_contra hn
        obtain rfl : n = 0 := by omega
        omega
      have hrest : At src (p + 1) (varintBytes n (v / 128)) :=
        (At.append (show At src p ([UInt8.ofNat (v % 128 + 128)] ++ _) from hat)).2
      rw [hat.byteAt, if_neg hge, hbyte, if_neg (by omega), ih (by omega) hn hdiv hrest,
        Option.map_some, List.length_cons]
      congr 2 <;> omega

theorem readTag_varintBytes {tag : ℕ} (htag : tag < 2 ^ 32) (hat : At src p (varintBytes 5 tag)) :
    readTag src p = some (tag, p + (varintBytes 5 tag).length) := by
  rw [readTag, varint_varintBytes le_rfl (by decide) (htag.trans (by decide)) hat, Option.map_some,
    Nat.mod_eq_of_lt htag]

theorem readVarint64_varintBytes {v : UInt64} (hat : At src p (varintBytes 10 v.toNat)) :
    readVarint64 src p = some (v, p + (varintBytes 10 v.toNat).length) := by
  have hlt : v.toNat < 128 ^ 10 := v.toNat_lt.trans (by decide)
  rw [readVarint64, varint_varintBytes le_rfl (by decide) hlt hat, Option.map_some,
    UInt64.ofNat_toNat]

/-- An unsigned number of 64 bits is cut to 32. -/
theorem readVarint32_varintBytes {v : UInt64} (hat : At src p (varintBytes 10 v.toNat)) :
    readVarint32 src p = some (v.toUInt32, p + (varintBytes 10 v.toNat).length) := by
  have hlt : v.toNat < 128 ^ 10 := v.toNat_lt.trans (by decide)
  rw [readVarint32, varint_varintBytes le_rfl (by decide) hlt hat, Option.map_some]
  rfl

/-- The largest size that `ReadSize` takes. -/
def maxSize : ℕ := 2 ^ 31 - 1 - 16

theorem readSize_varintBytes {size : ℕ} (hsize : size ≤ maxSize)
    (hat : At src p (varintBytes 5 size)) :
    readSize src p = some (size, p + (varintBytes 5 size).length) := by
  have hlt : size < 128 ^ 5 := hsize.trans_lt (by decide)
  rw [readSize, varint_varintBytes le_rfl (by decide) hlt hat]
  exact Option.filter_eq_some_iff.2 ⟨rfl, decide_eq_true hsize⟩

theorem readString_varintBytes {bytes : List UInt8} (hsize : bytes.length ≤ maxSize)
    (hat : At src p (varintBytes 5 bytes.length ++ bytes)) :
    readString src p = some (bytes, p + (varintBytes 5 bytes.length ++ bytes).length) := by
  obtain ⟨hat₁, hat₂⟩ := hat.append
  have hne := varintBytes_ne_nil (n := 5) (v := bytes.length) (by decide)
  have hp : p + (varintBytes 5 bytes.length).length ≤ src.length := by
    obtain ⟨b, rest, heq⟩ := List.exists_cons_of_ne_nil hne
    exact hat₁.le_length (At.lt_length (heq ▸ hat₁)).le
  have hle := hat₂.le_length hp
  rw [readString, readSize_varintBytes hsize hat₁, Option.bind_some, if_pos hle,
    ← List.prefix_iff_eq_take.1 hat₂, List.length_append, Nat.add_assoc]

/-! ## Messages that are read back -/

section Loop

variable {σ : Type*} {limit : ℕ} {field : ℕ → ℕ → σ → Option ℕ × σ} {s s' s'' : σ}
  {bytes bytes' : List UInt8}

variable (src limit field) in
/-- The loop over the fields takes the bytes, wherever they stand before the limit, and goes on
behind them with `s'` if it comes to them with `s`. -/
def Consumes (bytes : List UInt8) (s s' : σ) : Prop :=
  ∀ p, At src p bytes → p + bytes.length ≤ limit →
    parse src limit field p s = parse src limit field (p + bytes.length) s'

theorem Consumes.nil : Consumes src limit field [] s s := fun _ _ _ => rfl

theorem Consumes.append (h : Consumes src limit field bytes s s')
    (h' : Consumes src limit field bytes' s' s'') :
    Consumes src limit field (bytes ++ bytes') s s'' := by
  intro p hat hlimit
  obtain ⟨hat₁, hat₂⟩ := hat.append
  rw [List.length_append, ← Nat.add_assoc] at hlimit ⊢
  rw [h p hat₁ (by omega), h' _ hat₂ hlimit]

/-- A field that is left out when it has its default value. -/
theorem Consumes.ite {c : Prop} [Decidable c] (h : c → Consumes src limit field bytes s s')
    (hdefault : ¬c → s = s') : Consumes src limit field (if c then bytes else []) s s' := by
  split
  · rename_i hc
    exact h hc
  · rename_i hc
    exact hdefault hc ▸ Consumes.nil

/-- Fields of a repeated field, one after another. -/
theorem Consumes.flatMap {α : Type*} {encode : α → List UInt8} {add : σ → α → σ} {l : List α}
    (h : ∀ a ∈ l, ∀ s, Consumes src limit field (encode a) s (add s a)) (s : σ) :
    Consumes src limit field (l.flatMap encode) s (l.foldl add s) := by
  induction l generalizing s with
  | nil => exact Consumes.nil
  | cons a l ih =>
    rw [List.flatMap_cons, List.foldl_cons]
    exact (h a (List.mem_cons_self ..) s).append
      (ih (fun b hb => h b (List.mem_cons_of_mem a hb)) (add s a))

variable (hfield : ∀ {tag q r : ℕ} {s s' : σ}, field tag q s = (some r, s') → q ≤ r)
include hfield

/-- A tag, and a value that the field takes. -/
theorem Consumes.tagged {tag : ℕ} (htag : tag < 2 ^ 32) (hzero : tag ≠ 0) (hgroup : tag % 8 ≠ 4)
    (hvalue : ∀ q, At src q bytes → q ≤ src.length →
      field tag q s = (some (q + bytes.length), s')) :
    Consumes src limit field (varintBytes 5 tag ++ bytes) s s' := by
  intro p hat hlimit
  obtain ⟨hat₁, hat₂⟩ := hat.append
  obtain ⟨b, rest, heq⟩ :=
    List.exists_cons_of_ne_nil (varintBytes_ne_nil (n := 5) (v := tag) (by decide))
  have hlt : p < src.length := At.lt_length (heq ▸ hat₁)
  have hle := hat₁.le_length hlt.le
  have hlength := congrArg List.length heq
  rw [List.length_cons] at hlength
  rw [List.length_append] at hlimit
  have hmore : done src limit p = .more := by
    rw [done, if_neg (by omega), if_neg (by omega), if_neg (by omega)]
  rw [parse_eq hfield, pass, hmore]
  simp only
  rw [readTag_varintBytes htag hat₁]
  simp only
  rw [if_neg (by omega), hvalue _ hat₂ hle, List.length_append, Nat.add_assoc]

/-- A message that ends at its limit. -/
theorem parse_of_consumes (h : Consumes src limit field bytes s s') (hat : At src p bytes)
    (hp : p ≤ src.length) (hlimit : p + bytes.length = limit) :
    parse src limit field p s = (some ⟨limit, 0⟩, s') := by
  have hle := hat.le_length hp
  have hlast : done src limit limit = .atLimit := by
    rw [done, if_neg (by omega), if_pos rfl]
  rw [h p hat hlimit.le, hlimit, parse_eq hfield, pass, hlast]

/-- A message that is the whole array. -/
theorem parse_self_of_consumes (h : Consumes src src.length field src s s') :
    parse src src.length field 0 s = (some ⟨src.length, 0⟩, s') :=
  parse_of_consumes hfield h At.self (Nat.zero_le _) (Nat.zero_add _)

end Loop

/-- A message inside of another, with its size in front. -/
theorem parseMessage_of_consumes {σ : Type*} {field : ℕ → ℕ → ℕ → ℕ → σ → Option ℕ × σ}
    (hfield : ∀ {depth limit tag q r : ℕ} {s s' : σ},
      field depth limit tag q s = (some r, s') → q ≤ r)
    {depth : ℕ} {s s' : σ} {body : List UInt8} (hsize : body.length ≤ maxSize)
    (hbody : ∀ limit, Consumes src limit (field depth limit) body s s')
    (hat : At src p (varintBytes 5 body.length ++ body)) (hp : p ≤ src.length) :
    parseMessage src (fun depth limit => parse src limit (field depth limit)) (depth + 1) p s =
      (some (p + (varintBytes 5 body.length ++ body).length), s') := by
  obtain ⟨hat₁, hat₂⟩ := hat.append
  have hinner := parse_of_consumes (fun h => hfield h) (hbody _) hat₂ (hat₁.le_length hp) rfl
  rw [parseMessage, readSize_varintBytes hsize hat₁]
  simp only
  rw [hinner]
  simp only
  rw [if_pos trivial, List.length_append, Nat.add_assoc]

/-! ## Packed numbers -/

section Packed

variable {σ : Type*} (add : σ → UInt64 → σ)

variable (src) in
/-- `ReadPackedVarintArray`: numbers up to `limit`, and the position behind the last one. -/
def readPackedVarintArray (limit p : ℕ) (s : σ) : Option ℕ × σ :=
  if p < limit then
    match _h : readVarint64 src p with
    | some (v, q) => readPackedVarintArray limit q (add s v)
    | none => (none, s)
  else (some p, s)
termination_by limit - p
decreasing_by
  have := readVarint64_advances _h
  omega

variable (src) in
/-- `ReadPackedVarint`. Numbers that go on behind the end of the array fail here; what the source
adds before it finds that out is not modelled. -/
def readPackedVarint (p : ℕ) (s : σ) : Option ℕ × σ :=
  match readSize src p with
  | none => (none, s)
  | some (size, q) =>
    if q + size ≤ src.length then
      match readPackedVarintArray src add (q + size) q s with
      | (some r, s) => (if r = q + size then some r else none, s)
      | (none, s) => (none, s)
    else (none, s)

variable {add}

theorem readPackedVarintArray_advances {limit : ℕ} {s s' : σ}
    (h : readPackedVarintArray src add limit p s = (some q, s')) : p ≤ q := by
  induction p, s using readPackedVarintArray.induct src add limit with
  | case1 p s hlt v r hread ih =>
    rw [readPackedVarintArray, if_pos hlt] at h
    split at h
    · rename_i heq
      cases hread.symm.trans heq
      exact (readVarint64_advances hread).le.trans (ih h)
    · cases h
  | case2 p s hlt hread =>
    rw [readPackedVarintArray, if_pos hlt] at h
    split at h
    · rename_i heq
      cases hread.symm.trans heq
    · cases h
  | case3 p s hge =>
    rw [readPackedVarintArray, if_neg hge] at h
    cases h
    exact le_rfl

theorem readPackedVarint_advances {s s' : σ}
    (h : readPackedVarint src add p s = (some q, s')) : p ≤ q := by
  unfold readPackedVarint at h
  split at h
  · cases h
  · rename_i hsize
    split at h
    · split at h
      · rename_i heq
        have hle := readPackedVarintArray_advances heq
        obtain ⟨hr, -⟩ := Prod.mk.inj h
        split at hr
        · cases hr
          exact (readSize_advances hsize).le.trans hle
        · cases hr
      · cases h
    · cases h

/-- The numbers of `WriteVarintPacked`, one behind the other. -/
def packedBytes (l : List UInt64) : List UInt8 := l.flatMap fun v => varintBytes 10 v.toNat

theorem length_packedBytes (l : List UInt64) :
    (packedBytes l).length = (l.map fun v => varintSize v.toNat).sum := by
  rw [packedBytes, List.length_flatMap]
  refine congrArg List.sum (List.map_congr_left fun v _ => ?_)
  exact length_varintBytes (by decide) (v.toNat_lt.trans (by decide)) v.toNat_lt

theorem readPackedVarintArray_packedBytes {l : List UInt64} {limit : ℕ} {s : σ}
    (hat : At src p (packedBytes l)) (hlimit : p + (packedBytes l).length = limit) :
    readPackedVarintArray src add limit p s = (some limit, l.foldl add s) := by
  induction l generalizing p s with
  | nil =>
    obtain rfl : p = limit := hlimit
    rw [readPackedVarintArray, if_neg (lt_irrefl p), List.foldl_nil]
  | cons v l ih =>
    rw [packedBytes, List.flatMap_cons] at hat hlimit
    rw [List.length_append] at hlimit
    obtain ⟨hat₁, hat₂⟩ := hat.append
    have hread := readVarint64_varintBytes hat₁
    have hlt := readVarint64_advances hread
    have hrest := ih (s := add s v) hat₂ (by rw [packedBytes]; omega)
    rw [readPackedVarintArray, if_pos (by omega)]
    split
    · rename_i heq
      cases hread.symm.trans heq
      exact hrest
    · rename_i heq
      cases hread.symm.trans heq

theorem readPackedVarint_packedBytes {l : List UInt64} {s : σ}
    (hsize : (packedBytes l).length ≤ maxSize) (hp : p ≤ src.length)
    (hat : At src p (varintBytes 5 (packedBytes l).length ++ packedBytes l)) :
    readPackedVarint src add p s =
      (some (p + (varintBytes 5 (packedBytes l).length ++ packedBytes l).length),
        l.foldl add s) := by
  obtain ⟨hat₁, hat₂⟩ := hat.append
  have hle := hat₂.le_length (hat₁.le_length hp)
  rw [readPackedVarint, readSize_varintBytes hsize hat₁]
  simp only
  rw [if_pos hle, readPackedVarintArray_packedBytes hat₂ rfl]
  simp only
  rw [if_pos trivial, List.length_append, Nat.add_assoc]

end Packed

end Zelda.WireFormat
