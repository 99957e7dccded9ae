import Zelda.Foundations.WireFormat
import Zelda.Protocol

/-!
# Parsing the move message

The generated parsers of `C_Move` and of the `ObjectInfo` in it. A failure leaves in the message
what has been parsed before it. An integer that is malformed itself is stored as 0, an enumeration
value is not stored.
-/

namespace Zelda.Protocol

open WireFormat

variable {src : List UInt8} {depth limit tag p q : ℕ}

namespace ObjectInfo

variable (src)

/-- An `int32` field. -/
def parseInt32 (p : ℕ) (set : Int32 → ObjectInfo) : Option ℕ × ObjectInfo :=
  match readVarint32 src p with
  | some (v, q) => (some q, set v.toInt32)
  | none => (none, set 0)

/-- A field of an enumeration type. Unknown values are kept. -/
def parseEnum (p : ℕ) (info : ObjectInfo) (set : Int32 → ObjectInfo) : Option ℕ × ObjectInfo :=
  match readVarint64 src p with
  | some (v, q) => (some q, set v.toUInt32.toInt32)
  | none => (none, info)

/-- The field `objectId`. -/
def parseObjectid (p : ℕ) (info : ObjectInfo) : Option ℕ × ObjectInfo :=
  match readVarint64 src p with
  | some (v, q) => (some q, { info with objectid := v.toNat })
  | none => (none, { info with objectid := 0 })

/-- The field `name`, which must be UTF-8. What a failure leaves in it is not read by anyone. -/
def parseName (p : ℕ) (info : ObjectInfo) : Option ℕ × ObjectInfo :=
  match readString src p with
  | some (bytes, q) =>
    match String.fromUTF8? ⟨bytes.toArray⟩ with
    | some name => (some q, { info with name := name })
    | none => (none, info)
  | none => (none, info)

/-- The body of the loop of `ObjectInfo::_InternalParse`. -/
def parseField (depth limit tag p : ℕ) (info : ObjectInfo) : Option ℕ × ObjectInfo :=
  match tag with
  | 8 => parseObjectid src p info
  | 16 => parseEnum src p info fun v => { info with objecttype := v }
  | 24 => parseEnum src p info fun v => { info with state := v }
  | 32 => parseEnum src p info fun v => { info with dir := v }
  | 42 => parseName src p info
  | 48 => parseInt32 src p fun v => { info with hp := v }
  | 56 => parseInt32 src p fun v => { info with maxhp := v }
  | 64 => parseInt32 src p fun v => { info with attack := v }
  | 72 => parseInt32 src p fun v => { info with defence := v }
  | 80 => parseInt32 src p fun v => { info with posx := v }
  | 88 => parseInt32 src p fun v => { info with posy := v }
  | tag => (unknownFieldParse src limit depth tag p, info)

/-- `ObjectInfo::_InternalParse` -/
def internalParse (depth limit p : ℕ) (info : ObjectInfo) : Option Ended × ObjectInfo :=
  parse src limit (parseField src depth limit) p info

end ObjectInfo

namespace CMove

variable (src)

/-- The body of the loop of `C_Move::_InternalParse`. A second `info` is merged with the first. -/
def parseField (depth limit tag p : ℕ) (pkt : CMove) : Option ℕ × CMove :=
  match tag with
  | 10 =>
    let r := parseMessage src (ObjectInfo.internalParse src) depth p pkt.info
    (r.1, ⟨r.2⟩)
  | tag => (unknownFieldParse src limit depth tag p, pkt)

/-- `C_Move::_InternalParse` -/
def internalParse (depth limit p : ℕ) (pkt : CMove) : Option Ended × CMove :=
  parse src limit (parseField src depth limit) p pkt

/-- `CodedInputStream::GetDefaultRecursionLimit` -/
def defaultRecursionLimit : ℕ := 100

/-- `C_Move::ParseFromArray` into a new message. -/
def parseFromArray (payload : List UInt8) : Bool × CMove :=
  match internalParse payload defaultRecursionLimit payload.length 0 ⟨{}⟩ with
  | (some e, pkt) => (e.lastTagMinus1 == 0, pkt)
  | (none, pkt) => (false, pkt)

end CMove

example : CMove.parseFromArray [10, 4, 8, 2, 80, 5] = (true, ⟨{ objectid := 2, posx := 5 }⟩) := by
  decide

/-- The last byte says that its number goes on. -/
example : CMove.parseFromArray [10, 4, 8, 2, 80, 133] = (false, ⟨{ objectid := 2, posx := 5 }⟩) := by
  decide

/-! ## The loops -/

theorem ObjectInfo.parseField_advances {info info' : ObjectInfo}
    (h : parseField src depth limit tag p info = (some q, info')) : p ≤ q := by
  have hint32 : ∀ {set : Int32 → ObjectInfo}, parseInt32 src p set = (some q, info') → p ≤ q := by
    intro set h
    unfold parseInt32 at h
    split at h
    · rename_i hread
      cases h
      exact (readVarint32_advances hread).le
    · cases h
  have henum : ∀ {set : Int32 → ObjectInfo}, parseEnum src p info set = (some q, info') →
      p ≤ q := by
    intro set h
    unfold parseEnum at h
    split at h
    · rename_i hread
      cases h
      exact (readVarint64_advances hread).le
    · cases h
  unfold parseField at h
  split at h
  · unfold parseObjectid at h
    split at h
    · rename_i hread
      cases h
      exact (readVarint64_advances hread).le
    · cases h
  · exact henum h
  · exact henum h
  · exact henum h
  · unfold parseName at h
    split at h
    · rename_i hread
      split at h
      · cases h
        exact (readString_advances hread).le
      · cases h
    · cases h
  · exact hint32 h
  · exact hint32 h
  · exact hint32 h
  · exact hint32 h
  · exact hint32 h
  · exact hint32 h
  · exact unknownFieldParse_advances (Prod.mk.inj h).1

theorem CMove.parseField_advances {pkt pkt' : CMove}
    (h : parseField src depth limit tag p pkt = (some q, pkt')) : p ≤ q := by
  unfold parseField at h
  split at h
  · exact parseMessage_advances
      (fun hinner => parse_advances ObjectInfo.parseField_advances hinner)
      (s := pkt.info) (Prod.ext (Prod.mk.inj h).1 rfl)
  · exact unknownFieldParse_advances (Prod.mk.inj h).1

end Zelda.Protocol
