import Zelda.Foundations.Runs
import Zelda.ServerCore.SocketResult

/-!
# Who refers to a session

A session is a `shared_ptr`. It is destroyed when the last reference to it goes: from the service,
the session manager, a player, the `owner` of one of its events, an accept event, or the thread that
dispatches one of its completions. A player lives as long as it is in the room or a local variable
refers to it: the target in `Monster::Update`, the object that moves in `Handle_C_Move`.

The server has one thread, which calls `IocpCore::Dispatch` and `GameRoom::Update` in turn. What it
does is modelled from one call of content code or of Winsock to the next, with the functions it has
to go back to on a stack. A function fails with a `Fault` where the program would use a session that
is destroyed, or would break a rule of the events.

The local variables of `OnConnected` and `OnDisconnected` are not counted: what they refer to is the
session that `main` is busy with, or one that the service still has. How `Broadcast` gets from one
player to the next is not modelled. `assert(e)` evaluates `e`.
-/

namespace Zelda.ServerCore.Lifetime

open Zelda.Server (SocketResult)

/-! ## State -/

/-- An `IocpEvent` of a session. -/
structure IocpEvent where
  /-- `owner` is the session, not null. -/
  owner : Bool := false
  /-- Winsock has accepted an operation with the event, and `Dispatch` has not seen it complete. -/
  underWay : Bool := false
  deriving DecidableEq

/-- A session of the server with those who refer to it. -/
structure GameSession where
  connected : Bool := false
  sendRegistered : Bool := false
  /-- How many buffers are queued. -/
  sendQueue : ℕ := 0
  recvEvent : IocpEvent := {}
  sendEvent : IocpEvent := {}
  disconnectEvent : IocpEvent := {}
  /-- It is in `Service::_sessions`. -/
  inService : Bool := false
  /-- It is in `GameSessionManager::_sessions`. -/
  inManager : Bool := false
  /-- It is the session of a player in the room. -/
  hasPlayer : Bool := false
  /-- A `WSARecv` of it has failed at once with a code on which `HandleError` does nothing. -/
  recvLost : Bool := false
  deriving DecidableEq

/-- Something that keeps the session refers to it. -/
def GameSession.referenced (g : GameSession) : Bool :=
  g.inService || g.inManager || g.hasPlayer || g.recvEvent.owner || g.sendEvent.owner ||
    g.disconnectEvent.owner

/-- What `main` is in. -/
inductive Base
  /-- Between two calls. -/
  | loop
  | update
  /-- `OnConnected`, called by `ProcessAccept` for the session of an accept event. -/
  | onConnected (event i : ℕ)
  /-- `ProcessAccept`, which still has to call `RegisterAccept`. -/
  | processAccept (event i : ℕ)
  /-- `OnRecv`, called by `ProcessRecv`. -/
  | onRecv (i : ℕ)
  /-- `IocpCore::Dispatch`, which has nothing left to do. -/
  | dispatch (i : ℕ)
  deriving DecidableEq

/-- The session that `Dispatch` or `ProcessAccept` has a reference to. -/
def Base.session? : Base → Option ℕ
  | .loop | .update => none
  | .onConnected _ i | .processAccept _ i | .onRecv i | .dispatch i => some i

/-- The accept event that is being processed. -/
def Base.event? : Base → Option ℕ
  | .onConnected event _ | .processAccept event _ => some event
  | .loop | .update | .onRecv _ | .dispatch _ => none

/-- Content code that may refer to a player by a local variable. -/
def Base.borrows : Base → Bool
  | .update | .onRecv _ => true
  | .loop | .onConnected _ _ | .processAccept _ _ | .dispatch _ => false

/-- The function that has called content code will call `RegisterRecv`. -/
def Base.Receives (i : ℕ) : Base → Prop
  | .onConnected _ j | .onRecv j => j = i
  | .loop | .update | .processAccept _ _ | .dispatch _ => False

/-- A function that goes on when the calls it has made are over. -/
inductive Frame
  /-- `Disconnect`, in `OnDisconnected`. -/
  | disconnect (i : ℕ)
  /-- `RegisterSend`, in `HandleError`. -/
  | registerSend (i : ℕ)
  /-- `RegisterRecv`, in `HandleError`. -/
  | registerRecv (i : ℕ)
  deriving DecidableEq

def Frame.session : Frame → ℕ
  | .disconnect i | .registerSend i | .registerRecv i => i

/-- The process. Sessions are numbered in the order in which they are made. -/
structure Host where
  sessions : ℕ → GameSession := fun _ => {}
  /-- `Listener::_acceptEvents` by the session of each. -/
  acceptEvents : List (Option ℕ) := []
  created : ℕ := 0
  base : Base := .loop
  stack : List Frame := []
  /-- The session of the player that a local variable refers to. -/
  held : Option ℕ := none

inductive Fault
  /-- A member of a session that has been destroyed is used. -/
  | destroyed
  /-- `IocpCore::Dispatch` finds no owner. -/
  | ownerless
  /-- An event is passed to Winsock while an operation with it is under way. -/
  | inUse
  /-- The assertion of `ReleaseSession`. -/
  | unregistered
  deriving DecidableEq

/-- What Winsock and the receive buffer answer to a function that goes on. -/
structure Answers where
  /-- One of the checks of `ProcessRecv` after `OnRecv` fails. -/
  overflow : Bool := false
  wsaRecv : SocketResult := .accepted
  disconnectEx : Bool := true
  /-- How many `AcceptEx` fail before one is accepted. -/
  failures : ℕ := 0

namespace Host

variable (s : Host) (i : ℕ)

def alive : Bool :=
  (s.sessions i).referenced || s.acceptEvents.contains (some i) || s.base.session? = some i ||
    s.held = some i

def touch : Except Fault Unit := if s.alive i then return else throw .destroyed

def modify (f : GameSession → GameSession) : Host :=
  { s with sessions := Function.update s.sessions i (f (s.sessions i)) }

def push (f : Frame) : Host := { s with stack := f :: s.stack }

def enter (base : Base) : Host := { s with base := base }

/-- Another player is referred to, or none. -/
def hold (held : Option ℕ) : Host := { s with held := held }

/-! ## Functions of the session -/

/-- `Disconnect` with `OnDisconnected` up to the broadcast of `RemoveObject`. -/
def disconnect : Except Fault Host := do
  s.touch i
  if (s.sessions i).connected = false then return s
  let s := s.modify i fun g =>
    { g with connected := false, inManager := false, hasPlayer := false }
  return s.push (.disconnect i)

/-- `HandleError` -/
def handleError (result : SocketResult) : Except Fault Host :=
  if result.resets then s.disconnect i else return s

/-- `RegisterRecv` up to the end of `HandleError`, if that is called. -/
def registerRecv (result : SocketResult) : Except Fault Host := do
  s.touch i
  if (s.sessions i).connected = false then return s
  if (s.sessions i).recvEvent.underWay then throw .inUse
  match result with
  | .accepted => return s.modify i fun g => { g with recvEvent := ⟨true, true⟩ }
  | .failed errorCode =>
    let s := s.modify i fun g =>
      { g with
        recvEvent := { g.recvEvent with owner := true }
        recvLost := g.recvLost || !(SocketResult.failed errorCode).resets }
    (s.push (.registerRecv i)).handleError i (.failed errorCode)

/-- `RegisterSend` up to the end of `HandleError`, if that is called. -/
def registerSend (result : SocketResult) : Except Fault Host := do
  s.touch i
  if (s.sessions i).connected = false then return s
  if (s.sessions i).sendEvent.underWay then throw .inUse
  match result with
  | .accepted => return s.modify i fun g => { g with sendEvent := ⟨true, true⟩, sendQueue := 0 }
  | .failed errorCode =>
    let s := s.modify i fun g =>
      { g with sendEvent := { g.sendEvent with owner := true }, sendQueue := 0 }
    (s.push (.registerSend i)).handleError i (.failed errorCode)

/-- `Send` -/
def send (result : SocketResult) : Except Fault Host := do
  s.touch i
  let registerSend := (s.sessions i).sendRegistered = false
  let s := s.modify i fun g => { g with sendQueue := g.sendQueue + 1, sendRegistered := true }
  if registerSend then s.registerSend i result else return s

/-- `RegisterDisconnect` -/
def registerDisconnect (disconnectEx : Bool) : Except Fault Host := do
  s.touch i
  if (s.sessions i).disconnectEvent.underWay then throw .inUse
  if disconnectEx then return s.modify i fun g => { g with disconnectEvent := ⟨true, true⟩ }
  return s.modify i fun g => { g with disconnectEvent := { g.disconnectEvent with owner := false } }

/-- `Service::ReleaseSession` -/
def releaseSession : Except Fault Host :=
  if (s.sessions i).inService then return s.modify i fun g => { g with inService := false }
  else throw .unregistered

/-! ## Going on -/

/-- The rest of a function whose calls are over. -/
def resume (a : Answers) : Frame → Except Fault Host
  | .disconnect i => do
    s.touch i
    let s ← s.releaseSession i
    s.registerDisconnect i a.disconnectEx
  | .registerSend i => do
    s.touch i
    let s := s.modify i fun g => { g with sendEvent := { g.sendEvent with owner := false } }
    -- `_sendEvent.sendBuffers.clear()`
    s.touch i
    return s.modify i fun g => { g with sendRegistered := false }
  | .registerRecv i => do
    s.touch i
    return s.modify i fun g => { g with recvEvent := { g.recvEvent with owner := false } }

/-- `Listener::RegisterAccept`. A session whose `AcceptEx` fails gives way to the next one. -/
def registerAccept (event failures : ℕ) : Host :=
  { s with
    acceptEvents := s.acceptEvents.set event (some (s.created + failures))
    created := s.created + failures + 1 }

/-- What is left of the function that `main` is in. -/
def finish (a : Answers) : Base → Except Fault Host
  | .loop => return s
  | .update => return (s.hold none).enter .loop
  | .onConnected event i => (s.enter (.processAccept event i)).registerRecv i a.wsaRecv
  | .processAccept event _ => return (s.registerAccept event a.failures).enter .loop
  | .onRecv i =>
    let s := (s.hold none).enter (.dispatch i)
    if a.overflow then s.disconnect i else s.registerRecv i a.wsaRecv
  | .dispatch _ => return s.enter .loop

/-- Content code, or a `HandleError` without any, is over. -/
def returns (a : Answers) : Except Fault Host :=
  match s.stack with
  | [] => s.finish a s.base
  | f :: stack => { s with stack := stack }.resume a f

/-! ## Completions -/

/-- `ProcessAccept` up to the end of `GSessionManager.Add` in `OnConnected`, or up to a
`RegisterAccept` when the socket is not connected. -/
def accepted (event i : ℕ) (ok : Bool) : Host :=
  if ok then
    let s := s.modify i fun g => { g with connected := true, inService := true, inManager := true }
    s.enter (.onConnected event i)
  else s.enter (.processAccept event i)

/-- `ProcessRecv` up to `OnRecv` or the end of `Disconnect`. -/
def received (numOfBytes : ℕ) (overflow : Bool) : Except Fault Host := do
  if (s.sessions i).recvEvent.owner = false then throw .ownerless
  let s := s.modify i fun g => { g with recvEvent := {} }
  if numOfBytes = 0 ∨ overflow then (s.enter (.dispatch i)).disconnect i
  else return s.enter (.onRecv i)

/-- `ProcessSend`, whose `OnSend` does nothing. -/
def sent (numOfBytes : ℕ) (result : SocketResult) : Except Fault Host := do
  if (s.sessions i).sendEvent.owner = false then throw .ownerless
  let s := (s.modify i fun g => { g with sendEvent := {} }).enter (.dispatch i)
  if numOfBytes = 0 then s.disconnect i
  else if (s.sessions i).sendQueue = 0 then
    return s.modify i fun g => { g with sendRegistered := false }
  else s.registerSend i result

/-- `ProcessDisconnect` -/
def disconnected : Except Fault Host := do
  if (s.sessions i).disconnectEvent.owner = false then throw .ownerless
  return (s.modify i fun g => { g with disconnectEvent := {} }).enter (.dispatch i)

/-! ## Steps -/

/-- Content code is running. -/
def inContent : Bool :=
  match s.stack, s.base with
  | .disconnect _ :: _, _ => true
  | [], .update | [], .onConnected _ _ | [], .onRecv _ => true
  | _, _ => false

/-- `main` waits for a completion, or is about to update the room. -/
def idle : Bool := s.base = .loop && s.stack.isEmpty

end Host

/-- What happens next. -/
inductive Event
  /-- An `AcceptEx` has completed; `ok` when Winsock takes the socket for connected. -/
  | accepted (event : ℕ) (ok : Bool)
  | received (i numOfBytes : ℕ) (overflow : Bool)
  | sent (i numOfBytes : ℕ) (result : SocketResult)
  | disconnected (i : ℕ)
  | update
  /-- Content code sends something to the session of a player, as in `Broadcast`. -/
  | toPlayer (i : ℕ) (result : SocketResult)
  /-- `OnConnected` sends something to its session, or `EnterRoom` does. -/
  | toSelf (result : SocketResult)
  /-- `AddObject` puts the player of the new session into the room. -/
  | addPlayer
  /-- `RemoveObject` takes a player out that was killed. -/
  | removePlayer (i : ℕ)
  /-- A local variable gets to refer to a player in the room. -/
  | hold (i : ℕ)
  /-- It goes out of scope. -/
  | release
  | returns (a : Answers)

namespace Host

variable (s : Host)

/-- The session that `OnConnected` is for. -/
def entering : Option ℕ :=
  match s.stack, s.base with
  | [], .onConnected _ i => some i
  | _, _ => none

def possible : Event → Bool
  | .accepted event _ => s.idle && (s.acceptEvents[event]?.join).isSome
  | .received i _ _ => s.idle && (s.sessions i).recvEvent.underWay
  | .sent i _ _ => s.idle && (s.sessions i).sendEvent.underWay
  | .disconnected i => s.idle && (s.sessions i).disconnectEvent.underWay
  | .update => s.idle
  | .toPlayer i _ => s.inContent && (s.sessions i).hasPlayer
  | .toSelf _ => s.entering.isSome
  | .addPlayer => s.entering.isSome
  | .removePlayer i => s.inContent && (s.sessions i).hasPlayer
  | .hold i =>
    s.stack.isEmpty && s.base.borrows && s.held.isNone && (s.sessions i).hasPlayer
  | .release => s.stack.isEmpty && s.held.isSome
  | .returns _ => !s.idle

def step : Event → Except Fault Host
  | .accepted event ok => return s.acceptEvents[event]?.join.elim s (s.accepted event · ok)
  | .received i numOfBytes overflow => s.received i numOfBytes overflow
  | .sent i numOfBytes result => s.sent i numOfBytes result
  | .disconnected i => s.disconnected i
  | .update => return s.enter .update
  | .toPlayer i result => s.send i result
  | .toSelf result => s.entering.elim (return s) (s.send · result)
  | .addPlayer =>
    return s.entering.elim s fun i => s.modify i fun g => { g with hasPlayer := true }
  | .removePlayer i => return s.modify i fun g => { g with hasPlayer := false }
  | .hold i => return s.hold (some i)
  | .release => return s.hold none
  | .returns a => s.returns a

/-- The body of the loop of `Listener::StartAccept`. -/
def pushAccept (failures : ℕ) : Host :=
  { s with acceptEvents := s.acceptEvents ++ [none] }.registerAccept s.acceptEvents.length failures

/-- `Listener::StartAccept`, by how many `AcceptEx` fail for each accept event. -/
def startAccept (failures : List ℕ) : Host := failures.foldl pushAccept {}

end Host

/-- The server goes on. -/
def Steps (s : Host) (e : Event) (s' : Host) : Prop := s.possible e = true ∧ s.step e = .ok s'

end Zelda.ServerCore.Lifetime
