import Zelda.Server.FindPath
import Zelda.ServerCore.SocketResult

/-!
# The server: sessions, sends and the room

The state of the server is the room, the sessions, the id counter and a trace of what happened.
The operations follow the source: `Session::Send` may call `RegisterSend`, whose `WSASend` may fail
at once, and then `Disconnect` runs inside it, leaves the room and broadcasts again. The recursion
is cut open: the operations under `Reentrant` take `Disconnect` as a parameter, and `disconnect`
closes the loop with a bound on the nesting that is never reached (`disconnect_ne_outOfFuel`).

What the program gets from outside, the outcomes of its `WSASend` calls and the order in which
`std::priority_queue` returns nodes of equal cost, is a `Platform`.
-/

namespace Zelda.Server

open Protocol Std

/-! ## State -/

/-- What the program gets from outside. -/
structure Platform where
  /-- The outcome of the `n`-th `WSASend` of a session, counted from 0. -/
  wsaSend : SessionId → ℕ → SocketResult
  pq : PriorityQueue PQNode PQNode.cost

/-- `class GameSession` with the fields of `Session` that sending uses. The room pointer is
null or the one room. -/
structure GameSession where
  connected : Bool := false
  sendRegistered : Bool := false
  sendQueue : List ServerPacket := []
  /-- The buffers of the `WSASend` under way. -/
  sendEvent : List ServerPacket := []
  /-- How many times `WSASend` has been called. -/
  wsaSends : ℕ := 0
  player : Option ObjectId := none
  gameRoom : Bool := false
  deriving DecidableEq, Repr

namespace GameSession

variable (g : GameSession)

/-- `Session::Send`: the buffer is queued and the session registered for sending. -/
def push (pkt : ServerPacket) : GameSession :=
  { g with sendQueue := g.sendQueue ++ [pkt], sendRegistered := true }

/-- `Session::RegisterSend`: the queue is moved to the send event and `WSASend` is called. -/
def issue : GameSession :=
  { g with
    sendQueue := []
    sendEvent := g.sendEvent ++ g.sendQueue
    wsaSends := g.wsaSends + 1 }

/-- `Session::RegisterSend` after an error: the send event is cleared. -/
def clear : GameSession := { g with sendEvent := [], sendRegistered := false }

end GameSession

/-- What the trace records. -/
inductive Event
  /-- `Session::Send` was called. -/
  | send (session : SessionId) (pkt : ServerPacket)
  /-- `Player::ProcessSkill` was called for this player. -/
  | processSkill (id : ObjectId)
  /-- `GameRoom::ApplyDamage` passed its checks, with the values its subtractions start from: the
  attacker's attack, the victim's defence, and the victim's hp with the damage taken from it. -/
  | applyDamage (attacker victim : ObjectRef) (attack defence hp damage : Int32)
  deriving DecidableEq, Repr

/-- The state of the server. -/
structure World where
  room : GameRoom := {}
  /-- `GameObject::s_idGenerator` -/
  idGenerator : ObjectId := 1
  sessions : SessionId → GameSession := fun _ => {}
  trace : List Event := []

/-- Why a run has no next state. -/
inductive Fault
  /-- A loop over `_players` goes on from an entry that was erased meanwhile. -/
  | erasedEntry
  /-- The bound of a recursion or a loop was too small. -/
  | outOfFuel
  deriving DecidableEq, Repr

/-- The outcome of an operation. -/
abbrev Result := Except Fault World

theorem bind_eq_ok {x : Result} {f : World → Result} {w : World} :
    (x >>= f) = .ok w ↔ ∃ w₁, x = .ok w₁ ∧ f w₁ = .ok w := by
  cases x with
  | error fault => simp [bind, Except.bind]
  | ok w₁ => simp [bind, Except.bind]

namespace World

variable (w : World)

def setSession (s : SessionId) (g : GameSession) : World :=
  { w with sessions := Function.update w.sessions s g }

/-- The session after `_connected.exchange(false)`. -/
def disconnected (s : SessionId) : World :=
  w.setSession s { w.sessions s with connected := false }

def setRoom (r : GameRoom) : World := { w with room := r }

def log (e : Event) : World := { w with trace := w.trace ++ [e] }

/-- Changes the info of an object. -/
def modifyInfo (ref : ObjectRef) (f : ObjectInfo → ObjectInfo) : World :=
  w.setRoom (w.room.modifyInfo ref f)

/-- Takes an object out of the room. -/
def erase (ref : ObjectRef) : World := w.setRoom (w.room.erase ref)

/-- Changes a monster as a whole. -/
def modifyMonster (id : ObjectId) (f : Monster → Monster) : World :=
  w.setRoom (w.room.modifyMonster id f)

variable {w} {s t : SessionId} {g : GameSession} {r : GameRoom} {e : Event}

@[simp] theorem sessions_setSession_self : (w.setSession s g).sessions s = g :=
  Function.update_self _ _ _

theorem sessions_setSession_of_ne (h : t ≠ s) : (w.setSession s g).sessions t = w.sessions t :=
  Function.update_of_ne h _ _

@[simp] theorem room_setSession : (w.setSession s g).room = w.room := rfl

@[simp] theorem idGenerator_setSession : (w.setSession s g).idGenerator = w.idGenerator := rfl

@[simp] theorem trace_setSession : (w.setSession s g).trace = w.trace := rfl

@[simp] theorem room_setRoom : (w.setRoom r).room = r := rfl

@[simp] theorem idGenerator_setRoom : (w.setRoom r).idGenerator = w.idGenerator := rfl

@[simp] theorem sessions_setRoom : (w.setRoom r).sessions = w.sessions := rfl

@[simp] theorem trace_setRoom : (w.setRoom r).trace = w.trace := rfl

@[simp] theorem room_log : (w.log e).room = w.room := rfl

@[simp] theorem idGenerator_log : (w.log e).idGenerator = w.idGenerator := rfl

@[simp] theorem sessions_log : (w.log e).sessions = w.sessions := rfl

@[simp] theorem trace_log : (w.log e).trace = w.trace ++ [e] := rfl

section

variable {ref ref' : ObjectRef} {id : ObjectId} {f : ObjectInfo → ObjectInfo} {f' : Monster → Monster}

theorem room_modifyInfo : (w.modifyInfo ref f).room = w.room.modifyInfo ref f := rfl

theorem room_erase : (w.erase ref).room = w.room.erase ref := rfl

theorem room_modifyMonster : (w.modifyMonster id f').room = w.room.modifyMonster id f' := rfl

theorem info?_modifyInfo : (w.modifyInfo ref f).room.info? ref' =
    if ref' = ref then (w.room.info? ref).map f else w.room.info? ref' :=
  GameRoom.info?_modifyInfo

theorem info?_modifyInfo_of_info? {info : ObjectInfo} (h : w.room.info? ref = some info)
    (ref' : ObjectRef) : (w.modifyInfo ref f).room.info? ref' =
      if ref' = ref then some (f info) else w.room.info? ref' := by
  rw [info?_modifyInfo, h, Option.map_some]

theorem info?_eq_ite {info : ObjectInfo} (h : w.room.info? ref = some info) (ref' : ObjectRef) :
    w.room.info? ref' = if ref' = ref then some info else w.room.info? ref' := by
  split
  · rename_i href
    rw [href, h]
  · rfl

theorem session?_modifyInfo (id : ObjectId) :
    (w.modifyInfo ref f).room.session? id = w.room.session? id :=
  GameRoom.session?_modifyInfo id

theorem session?_erase (id : ObjectId) :
    (w.erase ref).room.session? id = if ref = .player id then none else w.room.session? id :=
  GameRoom.session?_erase id

theorem info?_erase :
    (w.erase ref).room.info? ref' = if ref' = ref then none else w.room.info? ref' :=
  GameRoom.info?_erase

theorem info?_modifyMonster : (w.modifyMonster id f').room.info? ref =
    if ref = .monster id then w.room.monsters[id]?.map (fun m => (f' m).info)
    else w.room.info? ref :=
  GameRoom.info?_modifyMonster

theorem info?_modifyMonster_of_getElem? {m : Monster} (h : w.room.monsters[id]? = some m)
    (ref : ObjectRef) : (w.modifyMonster id f').room.info? ref =
      if ref = .monster id then some (f' m).info else w.room.info? ref := by
  rw [info?_modifyMonster, h, Option.map_some]

end

end World

/-! ## Operations with `Disconnect` as a parameter -/

namespace Reentrant

variable (P : Platform) (disconnect : SessionId → World → Result)

/-- `Session::HandleError` -/
def handleError (s : SessionId) (outcome : SocketResult) (w : World) : Result :=
  if outcome.resets then disconnect s w else .ok w

/-- `Session::RegisterSend` -/
def registerSend (s : SessionId) (w : World) : Result :=
  let g := w.sessions s
  if g.connected = false then
    .ok w
  else
    let w := w.setSession s g.issue
    match P.wsaSend s g.wsaSends with
    | .accepted => .ok w
    | .failed errorCode => do
      let w ← handleError disconnect s (.failed errorCode) w
      .ok (w.setSession s (w.sessions s).clear)

/-- `Session::Send` -/
def send (s : SessionId) (pkt : ServerPacket) (w : World) : Result :=
  let g := w.sessions s
  let w := (w.setSession s (g.push pkt)).log (.send s pkt)
  if g.sendRegistered then .ok w else registerSend P disconnect s w

/-- The loop of `GameRoom::Broadcast` over the keys that were in `_players` when it started. Nothing
is inserted while it runs. A key erased before the loop gets to it is passed over; where the entry
the loop stands at is erased, going on is undefined behaviour. -/
def broadcastFrom (pkt : ServerPacket) : List ObjectId → World → Result
  | [], w => .ok w
  | id :: ids, w =>
    match w.room.players[id]? with
    | none => broadcastFrom pkt ids w
    | some player => do
      let w ← send P disconnect player.session pkt w
      if id ∈ w.room.players then broadcastFrom pkt ids w else .error .erasedEntry

/-- `GameRoom::Broadcast` -/
def broadcast (pkt : ServerPacket) (w : World) : Result :=
  broadcastFrom P disconnect pkt w.room.players.keys w

/-- `GameRoom::RemoveObject`. The object is destroyed, so its `room` pointer is not kept. -/
def removeObject (id : ObjectId) (w : World) : Result :=
  match w.room.findObject id with
  | none => .ok w
  | some ref =>
    match w.room.info? ref with
    | none => .ok w
    | some info =>
      if info.objecttype = objectTypePlayer then
        broadcast P disconnect (.sRemoveObject [id]) (w.erase (.player id))
      else if info.objecttype = objectTypeMonster then
        broadcast P disconnect (.sRemoveObject [id]) (w.erase (.monster id))
      else
        .ok w

/-- `GameRoom::LeaveRoom`. The weak pointer `session->player` is empty once the player has left
the room, and then its id is not registered any more. -/
def leaveRoom (s : SessionId) (w : World) : Result :=
  match (w.sessions s).player with
  | none => .ok w
  | some id => removeObject P disconnect id w

/-- `Session::Disconnect` with `GameSession::OnDisconnected`. -/
def disconnectOnce (s : SessionId) (w : World) : Result :=
  if (w.sessions s).connected = false then .ok w
  else leaveRoom P disconnect s (w.disconnected s)

end Reentrant

/-! ## Closing the recursion -/

section

variable (P : Platform)

/-- `Session::Disconnect` with at most `n` calls inside one another. -/
def disconnectN : ℕ → SessionId → World → Result
  | 0 => fun _ _ => .error .outOfFuel
  | n + 1 => Reentrant.disconnectOnce P (disconnectN n)

/-- `Session::Disconnect`. Every call inside another has taken a player out of the room. -/
def disconnect (s : SessionId) (w : World) : Result := disconnectN P (w.room.players.size + 1) s w

/-- `Session::Send` -/
def send (s : SessionId) (pkt : ServerPacket) (w : World) : Result :=
  Reentrant.send P (disconnect P) s pkt w

/-- `GameRoom::Broadcast` -/
def broadcast (pkt : ServerPacket) (w : World) : Result :=
  Reentrant.broadcast P (disconnect P) pkt w

/-- `GameRoom::RemoveObject` -/
def removeObject (id : ObjectId) (w : World) : Result :=
  Reentrant.removeObject P (disconnect P) id w

/-- `GameRoom::LeaveRoom` -/
def leaveRoom (s : SessionId) (w : World) : Result :=
  Reentrant.leaveRoom P (disconnect P) s w

end

end Zelda.Server
