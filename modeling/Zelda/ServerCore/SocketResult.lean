import Mathlib.Tactic

/-!
# How a socket call ends at once
-/

namespace Zelda.Server

/-- How a socket call ends at once: accepted (completed or pending), or failed with an error. -/
inductive SocketResult
  | accepted
  | failed (errorCode : Int32)
  deriving DecidableEq, Repr

/-- `WSAECONNABORTED` -/
def wsaeConnAborted : Int32 := 10053

/-- `WSAECONNRESET` -/
def wsaeConnReset : Int32 := 10054

/-- The call failed with one of the two codes on which `HandleError` disconnects. -/
def SocketResult.resets : SocketResult → Bool
  | .accepted => false
  | .failed errorCode => errorCode = wsaeConnReset || errorCode = wsaeConnAborted

end Zelda.Server
