import Mathlib.Tactic

/-!
# The messages

The messages of `Protocol.proto` that the room and the client exchange. Enumeration fields are
open, as the generated parser leaves them: any `int32` value can arrive, so they are `Int32` with
the named values as constants.
-/

namespace Zelda.Protocol

/-- A `uint64` object id. Ids are handed out by a counter that starts at 1; that it wraps around
after 2^64 objects is not modelled. -/
abbrev ObjectId := ℕ

/-! ## Enumerations -/

/-- `OBJECT_TYPE_PLAYER` -/
def objectTypePlayer : Int32 := 1

/-- `OBJECT_TYPE_MONSTER` -/
def objectTypeMonster : Int32 := 2

/-- `OBJECT_STATE_TYPE_IDLE` -/
def idle : Int32 := 0

/-- `OBJECT_STATE_TYPE_MOVE` -/
def move : Int32 := 1

/-- `OBJECT_STATE_TYPE_SKILL` -/
def skill : Int32 := 2

/-- `DIR_TYPE_UP` -/
def dirUp : Int32 := 0

/-- `DIR_TYPE_DOWN` -/
def dirDown : Int32 := 1

/-- `DIR_TYPE_LEFT` -/
def dirLeft : Int32 := 2

/-- `DIR_TYPE_RIGHT` -/
def dirRight : Int32 := 3

/-- The value is one of the four directions, so that it is in bounds of an array with an entry for
each of them. -/
def IsDir (dir : Int32) : Prop := dirUp ≤ dir ∧ dir ≤ dirRight

instance (dir : Int32) : Decidable (IsDir dir) := inferInstanceAs (Decidable (_ ∧ _))

/-! ## Messages -/

/-- `Protocol::ObjectInfo`; a new message has every field zero or empty. -/
structure ObjectInfo where
  objectid : ObjectId := 0
  objecttype : Int32 := 0
  state : Int32 := 0
  dir : Int32 := 0
  name : String := ""
  hp : Int32 := 0
  maxhp : Int32 := 0
  attack : Int32 := 0
  defence : Int32 := 0
  posx : Int32 := 0
  posy : Int32 := 0
  deriving DecidableEq, Repr

namespace ObjectInfo

variable (info : ObjectInfo)

/-- `set_state` -/
def setState (state : Int32) : ObjectInfo := { info with state := state }

/-- `set_dir` -/
def setDir (dir : Int32) : ObjectInfo := { info with dir := dir }

/-- `set_hp` -/
def setHp (hp : Int32) : ObjectInfo := { info with hp := hp }

/-- `set_maxhp` -/
def setMaxhp (maxhp : Int32) : ObjectInfo := { info with maxhp := maxhp }

end ObjectInfo

/-- `Protocol::C_Move`, the one message a client sends. -/
structure CMove where
  info : ObjectInfo
  deriving DecidableEq, Repr

/-- The messages of the server. -/
inductive ServerPacket
  | sEnterGame (success : Bool) (accountId : ℕ)
  | sMyPlayer (info : ObjectInfo)
  | sAddObject (objects : List ObjectInfo)
  | sRemoveObject (ids : List ObjectId)
  | sMove (info : ObjectInfo)
  deriving DecidableEq, Repr

end Zelda.Protocol
