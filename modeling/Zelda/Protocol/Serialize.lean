import Zelda.Foundations.WireEncoding
import Zelda.Protocol.Parse

/-!
# Serializing the messages

The generated serializers, and the parsers of the messages of the server. A field with its default
value is not written, and the parser of a new message leaves it at that value.

* `ObjectInfo.length_internalSerialize`, `ServerPacket.length_internalSerialize`: `ByteSizeLong`,
  which adds up the fields in another order, is the number of bytes written.
* `CMove.parseFromArray_internalSerialize`, `ServerPacket.parseFromArray_internalSerialize`: what
  is written is read back.
-/

namespace Zelda.Protocol

open WireFormat

variable {src : List UInt8} {depth limit tag p q : ℕ}

/-! ## Fields -/

/-- `WireFormatLite::MakeTag` -/
def makeTag (number wireType : ℕ) : ℕ := number * 8 + wireType

/-- `WriteUInt64ToArray`, for a value that is not the default. -/
def uint64Field (number : ℕ) (v : ℕ) : List UInt8 :=
  if v ≠ 0 then varintBytes 5 (makeTag number 0) ++ varintBytes 10 v else []

/-- The sign is extended before a number is written, so a negative one takes ten bytes. -/
def signExtended (v : Int32) : ℕ := v.toInt64.toUInt64.toNat

/-- `WriteInt32ToArray` and `WriteEnumToArray` -/
def int32Field (number : ℕ) (v : Int32) : List UInt8 :=
  if v ≠ 0 then varintBytes 5 (makeTag number 0) ++ varintBytes 10 (signExtended v) else []

/-- The bytes of a `std::string`. -/
def utf8 (s : String) : List UInt8 := s.toByteArray.data.toList

/-- `WriteStringMaybeAliased` -/
def stringField (number : ℕ) (s : String) : List UInt8 :=
  if s ≠ "" then
    varintBytes 5 (makeTag number 2) ++ (varintBytes 5 (utf8 s).length ++ utf8 s)
  else []

/-- `InternalWriteMessage`, with the cached size. -/
def messageField (number size : ℕ) (body : List UInt8) : List UInt8 :=
  varintBytes 5 (makeTag number 2) ++ (varintBytes 5 size ++ body)

/-- `UInt64SizePlusOne` -/
def uint64Size (v : ℕ) : ℕ := if v ≠ 0 then 1 + varintSize v else 0

/-- `Int32SizePlusOne`, and `EnumSize` with the tag. -/
def int32Size (v : Int32) : ℕ := if v ≠ 0 then 1 + varintSize (signExtended v) else 0

/-- `StringSize` with the tag. -/
def stringSize (s : String) : ℕ :=
  if s ≠ "" then 1 + (varintSize (utf8 s).length + (utf8 s).length) else 0

/-- `MessageSize` with the tag. -/
def messageSize (size : ℕ) : ℕ := 1 + (varintSize size + size)

theorem signExtended_lt (v : Int32) : signExtended v < 2 ^ 64 := v.toInt64.toUInt64.toNat_lt

/-- Cutting off what was extended gives the number back. -/
theorem toInt32_signExtended (v : Int32) : v.toInt64.toUInt64.toUInt32.toInt32 = v := by
  apply Int32.toBitVec_inj.1
  ext i hi
  simp only [UInt32.toBitVec_toInt32, UInt64.toBitVec_toUInt32, Int64.toBitVec_toUInt64,
    Int32.toBitVec_toInt64, BitVec.getElem_setWidth]
  grind

theorem fromUTF8_utf8 (s : String) : String.fromUTF8? ⟨(utf8 s).toArray⟩ = some s := by
  rw [utf8, Array.toArray_toList, String.fromUTF8?, dif_pos s.isValidUTF8]
  rfl

/-! ### Sizes -/

theorem length_tag {number wireType : ℕ} (hnumber : number < 16) (htype : wireType < 8) :
    (varintBytes 5 (makeTag number wireType)).length = 1 := by
  have hlt : makeTag number wireType < 128 := by rw [makeTag]; omega
  rw [varintBytes, if_pos hlt, List.length_singleton]

variable {number : ℕ} (hnumber : number < 16)
include hnumber

theorem length_uint64Field {v : ℕ} (hv : v < 2 ^ 64) :
    (uint64Field number v).length = uint64Size v := by
  rw [uint64Field, uint64Size]
  split
  · rw [List.length_append, length_tag hnumber (by decide),
      length_varintBytes (by decide) (hv.trans (by decide)) hv]
  · rfl

theorem length_int32Field {v : Int32} : (int32Field number v).length = int32Size v := by
  have hv := signExtended_lt v
  rw [int32Field, int32Size]
  split
  · rw [List.length_append, length_tag hnumber (by decide),
      length_varintBytes (by decide) (hv.trans (by decide)) hv]
  · rfl

theorem length_stringField {s : String} (hs : (utf8 s).length ≤ maxSize) :
    (stringField number s).length = stringSize s := by
  rw [stringField, stringSize]
  split
  · rw [List.length_append, List.length_append, length_tag hnumber (by decide),
      length_varintBytes (by decide) (hs.trans_lt (by decide)) (hs.trans_lt (by decide))]
  · rfl

theorem length_messageField {size : ℕ} {body : List UInt8} (hsize : size ≤ maxSize)
    (hbody : body.length = size) : (messageField number size body).length = messageSize size := by
  rw [messageField, messageSize, List.length_append, List.length_append, hbody,
    length_tag hnumber (by decide),
    length_varintBytes (by decide) (hsize.trans_lt (by decide)) (hsize.trans_lt (by decide))]

omit hnumber

/-! ## `ObjectInfo` -/

namespace ObjectInfo

variable (info : ObjectInfo)

/-- `ObjectInfo::_InternalSerialize` -/
def internalSerialize : List UInt8 :=
  uint64Field 1 info.objectid ++
    (int32Field 2 info.objecttype ++
      (int32Field 3 info.state ++
        (int32Field 4 info.dir ++
          (stringField 5 info.name ++
            (int32Field 6 info.hp ++
              (int32Field 7 info.maxhp ++
                (int32Field 8 info.attack ++
                  (int32Field 9 info.defence ++
                    (int32Field 10 info.posx ++ int32Field 11 info.posy)))))))))

/-- `ObjectInfo::ByteSizeLong` -/
def byteSizeLong : ℕ :=
  stringSize info.name + uint64Size info.objectid + int32Size info.objecttype +
    int32Size info.state + int32Size info.dir + int32Size info.hp + int32Size info.maxhp +
    int32Size info.attack + int32Size info.defence + int32Size info.posx + int32Size info.posy

/-- An id of 64 bits, and a size that the parser does not find too large. -/
structure Encodable : Prop where
  objectid : info.objectid < 2 ^ 64
  size : info.byteSizeLong ≤ maxSize

variable {info}

theorem Encodable.name (h : info.Encodable) : (utf8 info.name).length ≤ maxSize := by
  have hname : (utf8 info.name).length ≤ stringSize info.name := by
    rw [stringSize]
    split
    · omega
    · rename_i h
      rw [not_not.1 h]
      exact Nat.zero_le _
  have hsize := h.size
  rw [byteSizeLong] at hsize
  omega

theorem length_internalSerialize (h : info.Encodable) :
    info.internalSerialize.length = info.byteSizeLong := by
  simp only [internalSerialize, byteSizeLong, List.length_append]
  rw [length_uint64Field (by decide) h.objectid, length_stringField (by decide) h.name,
    length_int32Field (by decide), length_int32Field (by decide), length_int32Field (by decide),
    length_int32Field (by decide), length_int32Field (by decide), length_int32Field (by decide),
    length_int32Field (by decide), length_int32Field (by decide), length_int32Field (by decide)]
  omega

/-! ### Fields that are read back -/

/-- `ObjectInfo::MergeImpl` -/
def mergeFrom (toMsg info : ObjectInfo) : ObjectInfo where
  objectid := if info.objectid ≠ 0 then info.objectid else toMsg.objectid
  objecttype := if info.objecttype ≠ 0 then info.objecttype else toMsg.objecttype
  state := if info.state ≠ 0 then info.state else toMsg.state
  dir := if info.dir ≠ 0 then info.dir else toMsg.dir
  name := if info.name ≠ "" then info.name else toMsg.name
  hp := if info.hp ≠ 0 then info.hp else toMsg.hp
  maxhp := if info.maxhp ≠ 0 then info.maxhp else toMsg.maxhp
  attack := if info.attack ≠ 0 then info.attack else toMsg.attack
  defence := if info.defence ≠ 0 then info.defence else toMsg.defence
  posx := if info.posx ≠ 0 then info.posx else toMsg.posx
  posy := if info.posy ≠ 0 then info.posy else toMsg.posy

/-- `CopyFrom`, which merges into a message that has been cleared, makes a copy. -/
theorem mergeFrom_default (info : ObjectInfo) : mergeFrom {} info = info := by
  have h : ∀ {α : Type} [DecidableEq α] (v d : α), (if v ≠ d then v else d) = v := by
    intro α _ v d
    split
    · rfl
    · rename_i heq
      exact (not_not.1 heq).symm
  simp only [mergeFrom, h]

theorem consumes_tagged {info' : ObjectInfo} {bytes : List UInt8} {number wireType : ℕ}
    (hnumber : 0 < number ∧ number < 16) (htype : wireType < 3)
    (h : ∀ q, At src q bytes → q ≤ src.length →
      parseField src depth limit (makeTag number wireType) q info =
        (some (q + bytes.length), info')) :
    Consumes src limit (parseField src depth limit)
      (varintBytes 5 (makeTag number wireType) ++ bytes) info info' := by
  have hlt : makeTag number wireType < 2 ^ 32 := by rw [makeTag]; omega
  have hne : makeTag number wireType ≠ 0 := by rw [makeTag]; omega
  have hgroup : makeTag number wireType % 8 ≠ 4 := by rw [makeTag]; omega
  exact Consumes.tagged parseField_advances hlt hne hgroup h

/-- An `int32` field of the message `set old`. -/
theorem consumes_int32Field {number : ℕ} {old v new : Int32} (set : Int32 → ObjectInfo)
    (hnumber : 0 < number ∧ number < 16)
    (hparse : ∀ q, parseField src depth limit (makeTag number 0) q (set old) =
      parseInt32 src q set)
    (hnew : (if v ≠ 0 then v else old) = new) :
    Consumes src limit (parseField src depth limit) (int32Field number v) (set old) (set new) := by
  rw [← hnew]
  refine Consumes.ite (fun hv => ?_) fun hv => by rw [if_neg hv]
  rw [if_pos hv]
  refine consumes_tagged hnumber (by decide) fun q hat _ => ?_
  rw [hparse, parseInt32, signExtended, readVarint32_varintBytes hat]
  simp only [toInt32_signExtended]

/-- A field of an enumeration type, of the message `set old`. -/
theorem consumes_enumField {number : ℕ} {old v new : Int32} (set : Int32 → ObjectInfo)
    (hnumber : 0 < number ∧ number < 16)
    (hparse : ∀ q, parseField src depth limit (makeTag number 0) q (set old) =
      parseEnum src q (set old) set)
    (hnew : (if v ≠ 0 then v else old) = new) :
    Consumes src limit (parseField src depth limit) (int32Field number v) (set old) (set new) := by
  rw [← hnew]
  refine Consumes.ite (fun hv => ?_) fun hv => by rw [if_neg hv]
  rw [if_pos hv]
  refine consumes_tagged hnumber (by decide) fun q hat _ => ?_
  rw [hparse, parseEnum, signExtended, readVarint64_varintBytes hat]
  simp only [toInt32_signExtended]

theorem consumes_objectid {v new : ℕ} (hv : v < 2 ^ 64)
    (hnew : (if v ≠ 0 then v else info.objectid) = new) :
    Consumes src limit (parseField src depth limit) (uint64Field 1 v) info
      { info with objectid := new } := by
  rw [← hnew]
  have hnat : (UInt64.ofNat v).toNat = v := by
    rw [UInt64.toNat_ofNat']
    exact Nat.mod_eq_of_lt hv
  refine Consumes.ite (fun hv => ?_) fun hv => by rw [if_neg hv]
  rw [if_pos hv]
  refine consumes_tagged (by decide) (by decide) fun q hat _ => ?_
  rw [← hnat] at hat
  show parseObjectid src q info = _
  rw [parseObjectid, readVarint64_varintBytes hat]
  simp only [hnat]

theorem consumes_name {v new : String} (hv : (utf8 v).length ≤ maxSize)
    (hnew : (if v ≠ "" then v else info.name) = new) :
    Consumes src limit (parseField src depth limit) (stringField 5 v) info
      { info with name := new } := by
  rw [← hnew]
  refine Consumes.ite (fun hv => ?_) fun hv => by rw [if_neg hv]
  rw [if_pos hv]
  refine consumes_tagged (by decide) (by decide) fun q hat _ => ?_
  show parseName src q info = _
  rw [parseName, readString_varintBytes ‹_› hat]
  simp only [fromUTF8_utf8]

/-- **What is written is merged into the message that is there**, a field after the other. -/
theorem consumes_internalSerialize (toMsg : ObjectInfo) (h : info.Encodable) :
    Consumes src limit (parseField src depth limit) info.internalSerialize toMsg
      (toMsg.mergeFrom info) := by
  obtain ⟨id₀, type₀, state₀, dir₀, name₀, hp₀, maxhp₀, attack₀, defence₀, posx₀, posy₀⟩ := toMsg
  generalize hmerged : mergeFrom ⟨id₀, type₀, state₀, dir₀, name₀, hp₀, maxhp₀, attack₀, defence₀, posx₀,
    posy₀⟩ info = merged
  obtain ⟨id, type, state, dir, name, hp, maxhp, attack, defence, posx, posy⟩ := merged
  simp only [mergeFrom, ObjectInfo.mk.injEq] at hmerged
  obtain ⟨hid, htype, hstate, hdir, hname, hhp, hmaxhp, hattack, hdefence, hposx,
    hposy⟩ := hmerged
  refine (consumes_objectid h.objectid hid).append ?_
  refine (consumes_enumField
    (fun v => ⟨id, v, state₀, dir₀, name₀, hp₀, maxhp₀, attack₀, defence₀, posx₀, posy₀⟩)
    (by decide) (fun _ => rfl) htype).append ?_
  refine (consumes_enumField
    (fun v => ⟨id, type, v, dir₀, name₀, hp₀, maxhp₀, attack₀, defence₀, posx₀, posy₀⟩)
    (by decide) (fun _ => rfl) hstate).append ?_
  refine (consumes_enumField
    (fun v => ⟨id, type, state, v, name₀, hp₀, maxhp₀, attack₀, defence₀, posx₀, posy₀⟩)
    (by decide) (fun _ => rfl) hdir).append ?_
  refine (consumes_name h.name hname).append ?_
  refine (consumes_int32Field
    (fun v => ⟨id, type, state, dir, name, v, maxhp₀, attack₀, defence₀, posx₀, posy₀⟩)
    (by decide) (fun _ => rfl) hhp).append ?_
  refine (consumes_int32Field
    (fun v => ⟨id, type, state, dir, name, hp, v, attack₀, defence₀, posx₀, posy₀⟩)
    (by decide) (fun _ => rfl) hmaxhp).append ?_
  refine (consumes_int32Field
    (fun v => ⟨id, type, state, dir, name, hp, maxhp, v, defence₀, posx₀, posy₀⟩)
    (by decide) (fun _ => rfl) hattack).append ?_
  refine (consumes_int32Field
    (fun v => ⟨id, type, state, dir, name, hp, maxhp, attack, v, posx₀, posy₀⟩)
    (by decide) (fun _ => rfl) hdefence).append ?_
  refine (consumes_int32Field
    (fun v => ⟨id, type, state, dir, name, hp, maxhp, attack, defence, v, posy₀⟩)
    (by decide) (fun _ => rfl) hposx).append ?_
  exact consumes_int32Field
    (fun v => ⟨id, type, state, dir, name, hp, maxhp, attack, defence, posx, v⟩)
    (by decide) (fun _ => rfl) hposy

/-- `ParseMessage` behind `InternalWriteMessage`. -/
theorem parseMessage_internalSerialize (depth : ℕ) (toMsg : ObjectInfo) (h : info.Encodable)
    (hat : At src p (varintBytes 5 info.byteSizeLong ++ info.internalSerialize))
    (hp : p ≤ src.length) :
    parseMessage src (internalParse src) (depth + 1) p toMsg =
      (some (p + (varintBytes 5 info.byteSizeLong ++ info.internalSerialize).length),
        toMsg.mergeFrom info) := by
  have hsize := h.size
  rw [← length_internalSerialize h] at hsize hat ⊢
  exact parseMessage_of_consumes (fun h => parseField_advances h) hsize
    (fun _ => consumes_internalSerialize toMsg h) hat hp

end ObjectInfo

/-! ## Messages of an `ObjectInfo` -/

/-- An `ObjectInfo` with the number of its field, which is 1 in all the messages. -/
def infoField (info : ObjectInfo) : List UInt8 :=
  messageField 1 info.byteSizeLong info.internalSerialize

/-- Its size. -/
def infoSize (info : ObjectInfo) : ℕ := messageSize info.byteSizeLong

theorem length_infoField {info : ObjectInfo} (h : info.Encodable) :
    (infoField info).length = infoSize info :=
  length_messageField (by decide) h.size (ObjectInfo.length_internalSerialize h)

/-- The parser of a new message of type `σ`, which is the loop over its fields. -/
def parseNew {σ : Type*} (field : List UInt8 → ℕ → ℕ → ℕ → ℕ → σ → Option ℕ × σ)
    (payload : List UInt8) (s : σ) : Bool × σ :=
  match parse payload payload.length
    (field payload CMove.defaultRecursionLimit payload.length) 0 s with
  | (some e, s) => (e.lastTagMinus1 == 0, s)
  | (none, s) => (false, s)

theorem parseNew_of_consumes {σ : Type*}
    {field : List UInt8 → ℕ → ℕ → ℕ → ℕ → σ → Option ℕ × σ} {payload : List UInt8}
    (hfield : ∀ {depth limit tag q r : ℕ} {s s' : σ},
      field payload depth limit tag q s = (some r, s') → q ≤ r) {s s' : σ}
    (h : Consumes payload payload.length
      (field payload CMove.defaultRecursionLimit payload.length) payload s s') :
    parseNew field payload s = (true, s') := by
  rw [parseNew, parse_self_of_consumes (fun h => hfield h) h]
  rfl

namespace CMove

variable (pkt : CMove)

/-- `C_Move::_InternalSerialize`. The message always has an `info`: whoever makes one has called
`mutable_info`. -/
def internalSerialize : List UInt8 := infoField pkt.info

/-- `C_Move::ByteSizeLong` -/
def byteSizeLong : ℕ := infoSize pkt.info

variable {pkt}

/-- `C_Move::MergeImpl` -/
def mergeFrom (toMsg pkt : CMove) : CMove := ⟨toMsg.info.mergeFrom pkt.info⟩

theorem mergeFrom_default (pkt : CMove) : mergeFrom ⟨{}⟩ pkt = pkt :=
  congrArg CMove.mk (ObjectInfo.mergeFrom_default pkt.info)

theorem consumes_internalSerialize (toMsg : CMove) (h : pkt.info.Encodable) :
    Consumes src limit (parseField src (depth + 1) limit) pkt.internalSerialize toMsg
      (toMsg.mergeFrom pkt) := by
  refine Consumes.tagged (fun h => parseField_advances h) (by decide) (by decide) (by decide)
    fun q hat hq => ?_
  have hinfo := ObjectInfo.parseMessage_internalSerialize depth toMsg.info h hat hq
  show ((parseMessage src (ObjectInfo.internalParse src) (depth + 1) q _).1, CMove.mk _) = _
  rw [hinfo]
  rfl

theorem parseFromArray_of_consumes {payload : List UInt8}
    (h : Consumes payload payload.length
      (parseField payload defaultRecursionLimit payload.length) payload ⟨{}⟩ pkt) :
    parseFromArray payload = (true, pkt) := by
  have hparse : internalParse payload defaultRecursionLimit _ 0 ⟨{}⟩ = (_, pkt) :=
    parse_self_of_consumes (fun h => parseField_advances h) h
  rw [parseFromArray, hparse]
  rfl

/-- **The server reads the move that the client has written.** -/
theorem parseFromArray_internalSerialize (h : pkt.info.Encodable) :
    parseFromArray pkt.internalSerialize = (true, pkt) := by
  refine parseFromArray_of_consumes ?_
  conv_rhs => rw [← mergeFrom_default pkt]
  exact consumes_internalSerialize ⟨{}⟩ h

/-- **Moves in a row are merged.** A field of the second that has its default value does not show. -/
theorem parseFromArray_append {pkt pkt' : CMove} (h : pkt.info.Encodable)
    (h' : pkt'.info.Encodable) :
    parseFromArray (pkt.internalSerialize ++ pkt'.internalSerialize) =
      (true, pkt.mergeFrom pkt') := by
  refine parseFromArray_of_consumes (Consumes.append ?_ (consumes_internalSerialize pkt h'))
  conv_rhs => rw [← mergeFrom_default pkt]
  exact consumes_internalSerialize ⟨{}⟩ h

/-- The second move leaves the player where the first one has put it. -/
theorem parseFromArray_append_moveLeft :
    parseFromArray
        ((CMove.mk { objectid := 2, state := move, posx := 5, posy := 7 }).internalSerialize ++
          (CMove.mk { objectid := 2, dir := dirLeft, posx := -1 }).internalSerialize) =
      (true, ⟨{ objectid := 2, state := move, dir := dirLeft, posx := -1, posy := 7 }⟩) :=
  parseFromArray_append ⟨by decide, by decide⟩ ⟨by decide, by decide⟩

end CMove

/-! ## The messages of the server -/

/-- `Protocol::S_EnterGame` -/
structure SEnterGame where
  success : Bool := false
  accountid : ℕ := 0
  deriving DecidableEq, Repr

namespace SEnterGame

variable (src)

/-- The body of the loop of `S_EnterGame::_InternalParse`. -/
def parseField (depth limit tag p : ℕ) (pkt : SEnterGame) : Option ℕ × SEnterGame :=
  match tag with
  | 8 =>
    match readVarint64 src p with
    | some (v, q) => (some q, { pkt with success := v ≠ 0 })
    | none => (none, { pkt with success := false })
  | 16 =>
    match readVarint64 src p with
    | some (v, q) => (some q, { pkt with accountid := v.toNat })
    | none => (none, { pkt with accountid := 0 })
  | tag => (unknownFieldParse src limit depth tag p, pkt)

variable {src}

theorem parseField_advances {pkt pkt' : SEnterGame}
    (h : parseField src depth limit tag p pkt = (some q, pkt')) : p ≤ q := by
  unfold parseField at h
  split at h
  · split at h
    · rename_i hread
      cases h
      exact (readVarint64_advances hread).le
    · cases h
  · split at h
    · rename_i hread
      cases h
      exact (readVarint64_advances hread).le
    · cases h
  · exact unknownFieldParse_advances (Prod.mk.inj h).1

/-- `WriteBoolToArray` -/
def boolField (number : ℕ) (v : Bool) : List UInt8 :=
  if v then varintBytes 5 (makeTag number 0) ++ varintBytes 5 1 else []

variable (pkt : SEnterGame)

/-- `S_EnterGame::_InternalSerialize` -/
def internalSerialize : List UInt8 := boolField 1 pkt.success ++ uint64Field 2 pkt.accountid

/-- `S_EnterGame::ByteSizeLong` -/
def byteSizeLong : ℕ := uint64Size pkt.accountid + if pkt.success then 1 + 1 else 0

variable {pkt}

theorem length_internalSerialize (h : pkt.accountid < 2 ^ 64) :
    pkt.internalSerialize.length = pkt.byteSizeLong := by
  rw [internalSerialize, byteSizeLong, List.length_append, length_uint64Field (by decide) h,
    boolField, Nat.add_comm]
  split <;> rfl

theorem consumes_internalSerialize (h : pkt.accountid < 2 ^ 64) :
    Consumes src limit (parseField src depth limit) pkt.internalSerialize {} pkt := by
  have hsuccess : Consumes src limit (parseField src depth limit) (boolField 1 pkt.success) {}
      { success := pkt.success } := by
    refine Consumes.ite (fun hv => Consumes.tagged parseField_advances (by decide) (by decide)
      (by decide) fun q hat _ => ?_) fun hv => by rw [Bool.not_eq_true] at hv; rw [hv]
    have hread := readVarint64_varintBytes (v := 1) hat
    simp only [makeTag, parseField, hread, hv]
    rfl
  have haccount : Consumes src limit (parseField src depth limit) (uint64Field 2 pkt.accountid)
      { success := pkt.success } pkt := by
    have hnat : (UInt64.ofNat pkt.accountid).toNat = pkt.accountid := by
      rw [UInt64.toNat_ofNat']
      exact Nat.mod_eq_of_lt h
    refine Consumes.ite (fun hv => Consumes.tagged parseField_advances (by decide) (by decide)
      (by decide) fun q hat _ => ?_) fun hv => by rw [← not_not.1 hv]
    rw [← hnat] at hat
    simp only [makeTag, parseField, readVarint64_varintBytes hat, hnat]
  exact hsuccess.append haccount

end SEnterGame

namespace SAddObject

variable (src)

/-- The body of the loop of `S_AddObject::_InternalParse`, whose message is the list of `objects`.
The source stays in the case for the field as long as another object follows; each of them is a
pass of the loop here. -/
def parseField (depth limit tag p : ℕ) (objects : List ObjectInfo) :
    Option ℕ × List ObjectInfo :=
  match tag with
  | 10 =>
    let r := parseMessage src (ObjectInfo.internalParse src) depth p {}
    (r.1, objects ++ [r.2])
  | tag => (unknownFieldParse src limit depth tag p, objects)

variable {src}

theorem parseField_advances {objects objects' : List ObjectInfo}
    (h : parseField src depth limit tag p objects = (some q, objects')) : p ≤ q := by
  unfold parseField at h
  split at h
  · exact parseMessage_advances
      (fun hinner => parse_advances ObjectInfo.parseField_advances hinner)
      (Prod.ext (Prod.mk.inj h).1 rfl)
  · exact unknownFieldParse_advances (Prod.mk.inj h).1

/-- `S_AddObject::_InternalSerialize` -/
def internalSerialize (objects : List ObjectInfo) : List UInt8 := objects.flatMap infoField

/-- `S_AddObject::ByteSizeLong` -/
def byteSizeLong (objects : List ObjectInfo) : ℕ :=
  1 * objects.length +
    (objects.map fun info => varintSize info.byteSizeLong + info.byteSizeLong).sum

variable {objects : List ObjectInfo}

theorem length_internalSerialize (h : ∀ info ∈ objects, info.Encodable) :
    (internalSerialize objects).length = byteSizeLong objects := by
  induction objects with
  | nil => rfl
  | cons info objects ih =>
    have hrest := ih fun info' hmem => h info' (List.mem_cons_of_mem info hmem)
    have hinfo := length_infoField (h info (List.mem_cons_self ..))
    rw [internalSerialize, byteSizeLong] at hrest ⊢
    rw [infoSize, messageSize] at hinfo
    rw [List.flatMap_cons, List.length_append, List.length_cons, List.map_cons, List.sum_cons]
    omega

theorem consumes_internalSerialize (h : ∀ info ∈ objects, info.Encodable) :
    Consumes src limit (parseField src (depth + 1) limit) (internalSerialize objects) []
      objects := by
  have hone : ∀ info ∈ objects, ∀ s, Consumes src limit (parseField src (depth + 1) limit)
      (infoField info) s (s ++ [info]) := by
    intro info hmem s
    refine Consumes.tagged parseField_advances (by decide) (by decide) (by decide)
      fun q hat hq => ?_
    have hinfo := ObjectInfo.parseMessage_internalSerialize depth {} (h info hmem) hat hq
    rw [ObjectInfo.mergeFrom_default] at hinfo
    show ((parseMessage src (ObjectInfo.internalParse src) (depth + 1) q {}).1, s ++ [_]) = _
    rw [hinfo]
  have hall := Consumes.flatMap hone []
  rwa [List.foldl_append_eq_append, ← List.flatMap_def, List.flatMap_singleton',
    List.nil_append] at hall

end SAddObject

namespace SRemoveObject

variable (src)

/-- The body of the loop of `S_RemoveObject::_InternalParse`, whose message is the list of `ids`:
they may also come one by one. -/
def parseField (depth limit tag p : ℕ) (ids : List ObjectId) : Option ℕ × List ObjectId :=
  match tag with
  | 10 => readPackedVarint src (fun ids v => ids ++ [v.toNat]) p ids
  | 8 =>
    match readVarint64 src p with
    | some (v, q) => (some q, ids ++ [v.toNat])
    | none => (none, ids ++ [0])
  | tag => (unknownFieldParse src limit depth tag p, ids)

variable {src}

theorem parseField_advances {ids ids' : List ObjectId}
    (h : parseField src depth limit tag p ids = (some q, ids')) : p ≤ q := by
  unfold parseField at h
  split at h
  · exact readPackedVarint_advances h
  · split at h
    · rename_i hread
      cases h
      exact (readVarint64_advances hread).le
    · cases h
  · exact unknownFieldParse_advances (Prod.mk.inj h).1

/-- The `ids` as they are stored. -/
def words (ids : List ObjectId) : List UInt64 := ids.map UInt64.ofNat

/-- `WriteUInt64Packed`, for a size that is not 0. -/
def internalSerialize (ids : List ObjectId) : List UInt8 :=
  let bytes := packedBytes (words ids)
  if 0 < bytes.length then
    varintBytes 5 (makeTag 1 2) ++ (varintBytes 5 bytes.length ++ bytes)
  else []

/-- `S_RemoveObject::ByteSizeLong` -/
def byteSizeLong (ids : List ObjectId) : ℕ :=
  let dataSize := (ids.map varintSize).sum
  (if 0 < dataSize then 1 + varintSize dataSize else 0) + dataSize

variable {ids : List ObjectId}

theorem toNat_words (h : ∀ id ∈ ids, id < 2 ^ 64) : (words ids).map UInt64.toNat = ids := by
  rw [words, List.map_map, List.map_congr_left (g := id), List.map_id]
  intro id hid
  rw [Function.comp_apply, UInt64.toNat_ofNat']
  exact Nat.mod_eq_of_lt (h id hid)

theorem length_packedBytes_words (h : ∀ id ∈ ids, id < 2 ^ 64) :
    (packedBytes (words ids)).length = (ids.map varintSize).sum := by
  conv_rhs => rw [← toNat_words h]
  rw [length_packedBytes, List.map_map]
  rfl

theorem length_internalSerialize (h : ∀ id ∈ ids, id < 2 ^ 64)
    (hsize : byteSizeLong ids ≤ maxSize) :
    (internalSerialize ids).length = byteSizeLong ids := by
  have hdata := length_packedBytes_words h
  rw [byteSizeLong] at hsize
  simp only [internalSerialize, byteSizeLong, hdata]
  split
  · rw [List.length_append, List.length_append, length_tag (by decide) (by decide), hdata,
      length_varintBytes (by decide) (show _ < 128 ^ 5 from ?_) (show _ < 2 ^ 64 from ?_)]
    · omega
    · exact lt_of_le_of_lt (Nat.le_of_add_left_le hsize) (by decide)
    · exact lt_of_le_of_lt (Nat.le_of_add_left_le hsize) (by decide)
  · rw [List.length_nil]
    omega

theorem consumes_internalSerialize (h : ∀ id ∈ ids, id < 2 ^ 64)
    (hsize : byteSizeLong ids ≤ maxSize) :
    Consumes src limit (parseField src depth limit) (internalSerialize ids) [] ids := by
  have hdata := length_packedBytes_words h
  rw [byteSizeLong] at hsize
  have hids : (words ids).foldl (fun ids v => ids ++ [v.toNat]) [] = ids := by
    rw [List.foldl_append_eq_append, ← List.flatMap_def, ← List.map_eq_flatMap, toNat_words h,
      List.nil_append]
  refine Consumes.ite (fun _ => Consumes.tagged parseField_advances (by decide) (by decide)
    (by decide) fun q hat hq => ?_) fun hnot => ?_
  · show readPackedVarint src (fun ids v => ids ++ [v.toNat]) q [] = _
    rw [readPackedVarint_packedBytes (by omega) hq hat, hids]
  · have hnil : packedBytes (words ids) = [] := List.eq_nil_of_length_eq_zero (by omega)
    cases ids with
    | nil => rfl
    | cons id ids =>
      rw [words, List.map_cons, packedBytes, List.flatMap_cons] at hnil
      exact absurd (List.append_eq_nil_iff.1 hnil).1 (varintBytes_ne_nil (by decide))

end SRemoveObject

/-! ## Packets of the server -/

namespace ServerPacket

/-- The number of a message in the header of its packet. -/
def pktId : ServerPacket → UInt16
  | sEnterGame _ _ => 2
  | sMyPlayer _ => 4
  | sAddObject _ => 5
  | sRemoveObject _ => 6
  | sMove _ => 11

/-- `_InternalSerialize` of the messages. -/
def internalSerialize : ServerPacket → List UInt8
  | sEnterGame success accountId => SEnterGame.internalSerialize ⟨success, accountId⟩
  | sMyPlayer info => infoField info
  | sAddObject objects => SAddObject.internalSerialize objects
  | sRemoveObject ids => SRemoveObject.internalSerialize ids
  | sMove info => infoField info

/-- `ByteSizeLong` of the messages. -/
def byteSizeLong : ServerPacket → ℕ
  | sEnterGame success accountId => SEnterGame.byteSizeLong ⟨success, accountId⟩
  | sMyPlayer info => infoSize info
  | sAddObject objects => SAddObject.byteSizeLong objects
  | sRemoveObject ids => SRemoveObject.byteSizeLong ids
  | sMove info => infoSize info

/-- Ids of 64 bits, and sizes that the parser does not find too large. -/
def Encodable : ServerPacket → Prop
  | sEnterGame _ accountId => accountId < 2 ^ 64
  | sMyPlayer info => info.Encodable
  | sAddObject objects => ∀ info ∈ objects, info.Encodable
  | sRemoveObject ids => (∀ id ∈ ids, id < 2 ^ 64) ∧ SRemoveObject.byteSizeLong ids ≤ maxSize
  | sMove info => info.Encodable

/-- `HandlePacket` of the client up to the handler: the message that the `switch` finds for the
number in the header, and whether it has been parsed. `S_MyPlayer` and `S_Move` have the parser of
`C_Move`. -/
def parseFromArray (id : UInt16) (payload : List UInt8) : Option (Bool × ServerPacket) :=
  match id.toNat with
  | 2 =>
    let r := parseNew SEnterGame.parseField payload {}
    some (r.1, sEnterGame r.2.success r.2.accountid)
  | 4 =>
    let r := CMove.parseFromArray payload
    some (r.1, sMyPlayer r.2.info)
  | 5 =>
    let r := parseNew SAddObject.parseField payload []
    some (r.1, sAddObject r.2)
  | 6 =>
    let r := parseNew SRemoveObject.parseField payload []
    some (r.1, sRemoveObject r.2)
  | 11 =>
    let r := CMove.parseFromArray payload
    some (r.1, sMove r.2.info)
  | _ => none

variable {pkt : ServerPacket}

theorem length_internalSerialize (h : pkt.Encodable) :
    pkt.internalSerialize.length = pkt.byteSizeLong := by
  cases pkt with
  | sEnterGame success accountId => exact SEnterGame.length_internalSerialize h
  | sMyPlayer info => exact length_infoField h
  | sAddObject objects => exact SAddObject.length_internalSerialize h
  | sRemoveObject ids => exact SRemoveObject.length_internalSerialize h.1 h.2
  | sMove info => exact length_infoField h

/-- **The client reads the message that the server has written.** -/
theorem parseFromArray_internalSerialize (h : pkt.Encodable) :
    parseFromArray pkt.pktId pkt.internalSerialize = some (true, pkt) := by
  cases pkt with
  | sEnterGame success accountId =>
    have hread := parseNew_of_consumes (fun h => SEnterGame.parseField_advances h)
      (SEnterGame.consumes_internalSerialize (show (SEnterGame.mk success _).accountid < _ from h))
    show some (Prod.fst _, sEnterGame _ _) = _
    rw [internalSerialize, hread]
  | sMyPlayer info =>
    have hread := CMove.parseFromArray_internalSerialize h
    show some (Prod.fst _, sMyPlayer _) = _
    rw [CMove.internalSerialize] at hread
    rw [internalSerialize, hread]
  | sAddObject objects =>
    have hread := parseNew_of_consumes (fun h => SAddObject.parseField_advances h)
      (SAddObject.consumes_internalSerialize h)
    show some (Prod.fst _, sAddObject _) = _
    rw [internalSerialize, hread]
  | sRemoveObject ids =>
    have hread := parseNew_of_consumes (fun h => SRemoveObject.parseField_advances h)
      (SRemoveObject.consumes_internalSerialize h.1 h.2)
    show some (Prod.fst _, sRemoveObject _) = _
    rw [internalSerialize, hread]
  | sMove info =>
    have hread := CMove.parseFromArray_internalSerialize h
    show some (Prod.fst _, sMove _) = _
    rw [CMove.internalSerialize] at hread
    rw [internalSerialize, hread]

/-- **The messages of the server go through the wire format unchanged**: as many bytes are written
as `ByteSizeLong` has announced, and the parser that the client chooses for them makes the same
message of them. -/
theorem roundTrip (h : pkt.Encodable) :
    pkt.internalSerialize.length = pkt.byteSizeLong ∧
      parseFromArray pkt.pktId pkt.internalSerialize = some (true, pkt) :=
  ⟨length_internalSerialize h, parseFromArray_internalSerialize h⟩

theorem roundTrip_sAddObject :
    let pkt := sAddObject [{ objectid := 2 ^ 63, name := "Monster1", posx := -3, hp := 50 }, {}]
    pkt.internalSerialize.length = pkt.byteSizeLong ∧
      parseFromArray 5 pkt.internalSerialize = some (true, pkt) := by
  intro pkt
  have h : pkt.Encodable :=
    List.forall_mem_cons.2 ⟨⟨by decide, by decide⟩, List.forall_mem_singleton.2 ⟨by decide, by decide⟩⟩
  exact roundTrip h

end ServerPacket

end Zelda.Protocol
