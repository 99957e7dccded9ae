import Zelda.Foundations.Runs
import Zelda.Foundations.Token
import Zelda.ServerCore.SocketResult

/-!
# The session as its threads see it

`Session` at lock granularity: a step is what one thread does from one critical section, exchange of
an atomic, or socket call to the next, and any number of threads take their steps in any order. A
thread that calls into the session from one of its callbacks (`OnConnected` calls `Send`, `OnRecv`
calls `Disconnect`) is a second thread here, for which the first one waits.

`sendToken` and `recvToken` are what exclusivity rests on: the right to call `WSASend` is in at most
one place, a thread between its `exchange(true)` and its `WSASend` or a `WSASend` under way, and in
none when `_sendRegistered` is false; the right to call `WSARecv` likewise.
-/

namespace Zelda.ServerCore

open Server (SocketResult)

/-! ## State -/

/-- Where a thread stands in the functions of a session. -/
inductive Pc
  | idle
  /-- Calls `RegisterSend`. -/
  | registerSend
  /-- In `RegisterSend`, before it takes the lock. -/
  | drain
  /-- In `RegisterSend`, before `WSASend`. -/
  | wsaSend
  /-- In `RegisterSend`, back from `HandleError`. -/
  | releaseSend
  /-- In `ProcessSend`, in or after `OnSend`. -/
  | onSend
  /-- In `ProcessConnect`, in or after `OnConnected`. -/
  | onConnected
  /-- In `ProcessRecv`, in or after `OnRecv`. -/
  | onRecv
  /-- Calls `RegisterRecv`. -/
  | registerRecv
  /-- In `RegisterRecv`, before `WSARecv`. -/
  | wsaRecv
  /-- In `RegisterRecv`, back from `HandleError`. -/
  | releaseRecv
  deriving DecidableEq, Repr

/-- The thread has the right to call `WSASend`, or has just used it in vain. -/
def Pc.Sends : Pc → Prop
  | .registerSend | .drain | .wsaSend | .releaseSend | .onSend => True
  | _ => False

/-- The thread has the right to call `WSARecv`, or has just used it in vain. -/
def Pc.Receives : Pc → Prop
  | .onConnected | .onRecv | .registerRecv | .wsaRecv | .releaseRecv => True
  | _ => False

/-- `class Session` with threads `T` and buffers `β`. -/
structure Session (T β : Type*) where
  connected : Bool := false
  /-- The `ConnectEx` or `AcceptEx` of the session has not completed yet. -/
  connecting : Bool := true
  sendQueue : List β := []
  sendRegistered : Bool := false
  /-- `_sendEvent.sendBuffers` -/
  sendBuffers : List β := []
  /-- How many `WSASend` are under way. -/
  sendsOutstanding : ℕ := 0
  /-- How many `WSARecv` are under way. -/
  recvsOutstanding : ℕ := 0
  pc : T → Pc := fun _ => .idle
  /-- The buffers in the order in which their `Send` took the lock. -/
  sent : List β := []
  /-- The batches moved out of the queue for `WSASend`. -/
  handed : List (List β) := []
  /-- The batches of the `WSASend` that were accepted. -/
  issued : List (List β) := []
  /-- The buffers dropped after a `WSASend` that failed. -/
  discarded : List β := []

namespace Session

variable {T β : Type*} [DecidableEq T] (s : Session T β)

/-- A thread goes on to another point. -/
def goto (t : T) (k : Pc) : Session T β := { s with pc := Function.update s.pc t k }

/-! ## What the threads do -/

/-- `Send`: the critical section. -/
def send (t : T) (b : β) : Session T β :=
  { s with
    sendQueue := s.sendQueue ++ [b]
    sendRegistered := true
    sent := s.sent ++ [b]
    pc := Function.update s.pc t (if s.sendRegistered then .idle else .registerSend) }

/-- `RegisterSend`: `if (IsConnected() == false) return;` -/
def registerSend (t : T) : Session T β := s.goto t (if s.connected then .drain else .idle)

/-- `RegisterSend`: the critical section, which moves the queue to the event. -/
def drain (t : T) : Session T β :=
  { s with
    sendQueue := []
    sendBuffers := s.sendBuffers ++ s.sendQueue
    handed := s.handed ++ [s.sendBuffers ++ s.sendQueue]
    pc := Function.update s.pc t .wsaSend }

/-- `HandleError`, with `Disconnect` up to its `exchange(false)`. -/
def handleError (errorCode : Int32) : Session T β :=
  { s with connected := s.connected && !(SocketResult.failed errorCode).resets }

/-- `RegisterSend`: the call of `WSASend`, with `HandleError` when it fails. -/
def wsaSend (t : T) : SocketResult → Session T β
  | .accepted =>
    { s with
      sendsOutstanding := s.sendsOutstanding + 1
      issued := s.issued ++ [s.sendBuffers]
      pc := Function.update s.pc t .idle }
  | .failed errorCode => (s.handleError errorCode).goto t .releaseSend

/-- `RegisterSend`: the rest after `HandleError`. -/
def releaseSend (t : T) : Session T β :=
  { s with
    sendBuffers := []
    sendRegistered := false
    discarded := s.discarded ++ s.sendBuffers
    pc := Function.update s.pc t .idle }

/-- `ProcessSend` up to `OnSend`, or up to the exchange of `Disconnect` for 0 bytes. -/
def processSend (t : T) (numOfBytes : ℕ) : Session T β :=
  { s with
    connected := s.connected && numOfBytes != 0
    sendsOutstanding := s.sendsOutstanding - 1
    sendBuffers := []
    pc := Function.update s.pc t (if numOfBytes = 0 then .idle else .onSend) }

/-- `ProcessSend`: the critical section. -/
def onSend (t : T) : Session T β :=
  { s with
    sendRegistered := !s.sendQueue.isEmpty
    pc := Function.update s.pc t (if s.sendQueue.isEmpty then .idle else .registerSend) }

/-- `Disconnect` up to its `exchange(false)`. What follows touches no field of the session. -/
def disconnect : Session T β := { s with connected := false }

/-- `ProcessConnect` up to `OnConnected`. -/
def processConnect (t : T) : Session T β :=
  { s with
    connected := true
    connecting := false
    pc := Function.update s.pc t .onConnected }

/-- `RegisterRecv`: `if (IsConnected() == false) return;` -/
def registerRecv (t : T) : Session T β := s.goto t (if s.connected then .wsaRecv else .idle)

/-- `RegisterRecv`: the call of `WSARecv`, with `HandleError` when it fails. -/
def wsaRecv (t : T) : SocketResult → Session T β
  | .accepted =>
    { s with
      recvsOutstanding := s.recvsOutstanding + 1
      pc := Function.update s.pc t .idle }
  | .failed errorCode => (s.handleError errorCode).goto t .releaseRecv

/-- `ProcessRecv` up to `OnRecv`, or up to the exchange of `Disconnect` for 0 bytes. -/
def processRecv (t : T) (numOfBytes : ℕ) : Session T β :=
  { s with
    connected := s.connected && numOfBytes != 0
    recvsOutstanding := s.recvsOutstanding - 1
    pc := Function.update s.pc t (if numOfBytes = 0 then .idle else .onRecv) }

/-- `ProcessRecv` after `OnRecv`: `overflow` when one of its checks on the buffer has failed. -/
def onRecv (t : T) (overflow : Bool) : Session T β :=
  { s with
    connected := s.connected && !overflow
    pc := Function.update s.pc t (if overflow then .idle else .registerRecv) }

end Session

/-! ## Steps -/

/-- What a thread can do. -/
inductive SessionEvent (T β : Type*)
  | send (t : T) (b : β)
  | registerSend (t : T)
  | drain (t : T)
  | wsaSend (t : T) (result : SocketResult)
  | releaseSend (t : T)
  | processSend (t : T) (numOfBytes : ℕ)
  | onSend (t : T)
  | disconnect (t : T)
  | processConnect (t : T)
  | onConnected (t : T)
  | registerRecv (t : T)
  | wsaRecv (t : T) (result : SocketResult)
  | releaseRecv (t : T)
  | processRecv (t : T) (numOfBytes : ℕ)
  | onRecv (t : T) (overflow : Bool)

/-- The thread that acts. -/
def SessionEvent.thread {T β : Type*} : SessionEvent T β → T
  | .send t _ | .registerSend t | .drain t | .wsaSend t _ | .releaseSend t | .processSend t _
  | .onSend t | .disconnect t | .processConnect t | .onConnected t | .registerRecv t | .wsaRecv t _
  | .releaseRecv t | .processRecv t _ | .onRecv t _ => t

/-- The steps of a session. A session is connected at most once: the listener makes a new one for
every connection, and `RegisterConnect` fails on a socket that is already bound. -/
inductive SessionStep {T β : Type*} [DecidableEq T] :
    Session T β → SessionEvent T β → Session T β → Prop
  | send {s} {t : T} {b : β} (ht : s.pc t = .idle) : SessionStep s (.send t b) (s.send t b)
  | registerSend {s} {t : T} (ht : s.pc t = .registerSend) :
      SessionStep s (.registerSend t) (s.registerSend t)
  | drain {s} {t : T} (ht : s.pc t = .drain) : SessionStep s (.drain t) (s.drain t)
  | wsaSend {s} {t : T} {result : SocketResult} (ht : s.pc t = .wsaSend) :
      SessionStep s (.wsaSend t result) (s.wsaSend t result)
  | releaseSend {s} {t : T} (ht : s.pc t = .releaseSend) :
      SessionStep s (.releaseSend t) (s.releaseSend t)
  | processSend {s} {t : T} {numOfBytes : ℕ} (ht : s.pc t = .idle) (hout : 0 < s.sendsOutstanding) :
      SessionStep s (.processSend t numOfBytes) (s.processSend t numOfBytes)
  | onSend {s} {t : T} (ht : s.pc t = .onSend) : SessionStep s (.onSend t) (s.onSend t)
  | disconnect {s} {t : T} (ht : s.pc t = .idle) : SessionStep s (.disconnect t) s.disconnect
  | processConnect {s} {t : T} (ht : s.pc t = .idle) (hconn : s.connecting = true) :
      SessionStep s (.processConnect t) (s.processConnect t)
  | onConnected {s} {t : T} (ht : s.pc t = .onConnected) :
      SessionStep s (.onConnected t) (s.goto t .registerRecv)
  | registerRecv {s} {t : T} (ht : s.pc t = .registerRecv) :
      SessionStep s (.registerRecv t) (s.registerRecv t)
  | wsaRecv {s} {t : T} {result : SocketResult} (ht : s.pc t = .wsaRecv) :
      SessionStep s (.wsaRecv t result) (s.wsaRecv t result)
  | releaseRecv {s} {t : T} (ht : s.pc t = .releaseRecv) :
      SessionStep s (.releaseRecv t) (s.goto t .idle)
  | processRecv {s} {t : T} {numOfBytes : ℕ} (ht : s.pc t = .idle) (hout : 0 < s.recvsOutstanding) :
      SessionStep s (.processRecv t numOfBytes) (s.processRecv t numOfBytes)
  | onRecv {s} {t : T} {overflow : Bool} (ht : s.pc t = .onRecv) :
      SessionStep s (.onRecv t overflow) (s.onRecv t overflow)

/-- Whether the event can happen. -/
def SessionEvent.enabled {T β : Type*} (s : Session T β) : SessionEvent T β → Bool
  | .send t _ | .disconnect t => s.pc t = .idle
  | .registerSend t => s.pc t = .registerSend
  | .drain t => s.pc t = .drain
  | .wsaSend t _ => s.pc t = .wsaSend
  | .releaseSend t => s.pc t = .releaseSend
  | .processSend t _ => s.pc t = .idle ∧ 0 < s.sendsOutstanding
  | .onSend t => s.pc t = .onSend
  | .processConnect t => s.pc t = .idle ∧ s.connecting
  | .onConnected t => s.pc t = .onConnected
  | .registerRecv t => s.pc t = .registerRecv
  | .wsaRecv t _ => s.pc t = .wsaRecv
  | .releaseRecv t => s.pc t = .releaseRecv
  | .processRecv t _ => s.pc t = .idle ∧ 0 < s.recvsOutstanding
  | .onRecv t _ => s.pc t = .onRecv

/-- The session after the event. -/
def Session.act {T β : Type*} [DecidableEq T] (s : Session T β) : SessionEvent T β → Session T β
  | .send t b => s.send t b
  | .registerSend t => s.registerSend t
  | .drain t => s.drain t
  | .wsaSend t result => s.wsaSend t result
  | .releaseSend t => s.releaseSend t
  | .processSend t numOfBytes => s.processSend t numOfBytes
  | .onSend t => s.onSend t
  | .disconnect _ => s.disconnect
  | .processConnect t => s.processConnect t
  | .onConnected t => s.goto t .registerRecv
  | .registerRecv t => s.registerRecv t
  | .wsaRecv t result => s.wsaRecv t result
  | .releaseRecv t => s.goto t .idle
  | .processRecv t numOfBytes => s.processRecv t numOfBytes
  | .onRecv t overflow => s.onRecv t overflow

theorem sessionStep_act {T β : Type*} [DecidableEq T] {s : Session T β} {e : SessionEvent T β}
    (h : e.enabled s = true) : SessionStep s e (s.act e) := by
  cases e with
  | processSend t n =>
    obtain ⟨ht, hout⟩ := of_decide_eq_true h
    exact .processSend ht hout
  | processRecv t n =>
    obtain ⟨ht, hout⟩ := of_decide_eq_true h
    exact .processRecv ht hout
  | processConnect t =>
    obtain ⟨ht, hconn⟩ := of_decide_eq_true h
    exact .processConnect ht hconn
  | _ =>
    have ht := of_decide_eq_true h
    constructor
    exact ht

/-- A schedule that can be followed, with a condition on its events, is a run. -/
theorem reaches_of_follows {T β : Type*} [DecidableEq T]
    {C : Session T β → SessionEvent T β → Bool} {s : Session T β} (es : List (SessionEvent T β))
    (h : Reaches.follows (fun s e => C s e && e.enabled s) Session.act s es = true) :
    Reaches SessionStep (fun s e => C s e = true) s (es.foldl Session.act s) := by
  apply Reaches.of_follows _ h
  intro s e he
  obtain ⟨hC, henabled⟩ := Bool.and_eq_true_iff.1 he
  exact ⟨hC, sessionStep_act henabled⟩

/-! ## The right to send and the right to receive -/

section Tokens

variable {T β : Type*} {s s' : Session T β}

/-- The right to call `WSASend` is in at most one place, and in none while `_sendRegistered` is
false. -/
structure SendToken (s : Session T β) : Prop where
  token : Token s.pc Pc.Sends s.sendsOutstanding
  free : s.sendRegistered = false → Free s.pc Pc.Sends s.sendsOutstanding

/-- The right to call `WSARecv` is in at most one place. Until the session is connected it is with
the connection. -/
def RecvToken (s : Session T β) : Prop :=
  Token s.pc Pc.Receives (s.recvsOutstanding + s.connecting.toNat)

theorem sendToken_init : SendToken ({} : Session T β) :=
  have hfree : Free (fun _ : T => Pc.idle) Pc.Sends 0 := ⟨rfl, fun _ => id⟩
  ⟨hfree.token, fun _ => hfree⟩

theorem recvToken_init : RecvToken ({} : Session T β) where
  le_one := le_rfl
  nobody _ _ := id
  unique := False.elim

variable [DecidableEq T] {e : SessionEvent T β}

/-- A thread outside the send path goes to a point outside it. -/
theorem SendToken.outside (h : SendToken s) {t : T} {k : Pc} (hk : ¬ k.Sends)
    (hpc : s'.pc = Function.update s.pc t k) (hreg : s'.sendRegistered = s.sendRegistered)
    (hout : s'.sendsOutstanding = s.sendsOutstanding) : SendToken s' := by
  constructor
  · rw [hpc, hout]
    exact h.token.move rfl (fun hk' => absurd hk' hk)
  · rw [hpc, hout, hreg]
    exact fun hfalse => (h.free hfalse).move hk

/-- A thread of the send path stays in it. -/
theorem SendToken.inside (h : SendToken s) {t : T} {j k : Pc} (ht : s.pc t = j) (hj : j.Sends)
    (hpc : s'.pc = Function.update s.pc t k) (hreg : s'.sendRegistered = s.sendRegistered)
    (hout : s'.sendsOutstanding = s.sendsOutstanding) : SendToken s' := by
  constructor
  · rw [hpc, hout]
    exact h.token.move ht (fun _ => hj)
  · rw [hreg]
    intro hfalse
    apply absurd _ ((h.free hfalse).nobody t)
    rwa [ht]

theorem sendToken_step (hstep : SessionStep s e s') (h : SendToken s) : SendToken s' := by
  have hidle : ∀ b : Bool, ∀ k : Pc, ¬ k.Sends → ¬ (if b then Pc.idle else k).Sends := by
    intro b k hk
    cases b
    · exact hk
    · exact id
  cases hstep with
  | @send t b ht =>
    refine ⟨?_, fun hfalse => Bool.noConfusion hfalse⟩
    change Token (Function.update s.pc t (if s.sendRegistered then .idle else .registerSend))
      Pc.Sends s.sendsOutstanding
    cases hreg : s.sendRegistered with
    | true => exact h.token.move ht id
    | false => exact (h.free hreg).acquire
  | registerSend ht => exact h.inside ht trivial rfl rfl rfl
  | drain ht => exact h.inside ht trivial rfl rfl rfl
  | @wsaSend t result ht =>
    cases result with
    | accepted =>
      refine ⟨h.token.give ht trivial id, fun hfalse => ?_⟩
      apply absurd _ ((h.free hfalse).nobody t)
      rw [ht]
      trivial
    | failed errorCode => exact h.inside ht trivial rfl rfl rfl
  | releaseSend ht =>
    have hfree := h.token.release (k := .idle) ht trivial id
    exact ⟨hfree.token, fun _ => hfree⟩
  | @processSend t n ht hout =>
    obtain ⟨m, hm⟩ := Nat.exists_eq_succ_of_ne_zero hout.ne'
    have htoken := h.token
    rw [hm] at htoken
    refine ⟨?_, fun hfalse => absurd (h.free hfalse).eq_zero hout.ne'⟩
    change Token (Function.update s.pc t _) Pc.Sends (s.sendsOutstanding - 1)
    rw [hm]
    exact htoken.take
  | @onSend t ht =>
    cases hq : s.sendQueue.isEmpty with
    | true =>
      have hfree := h.token.release (k := .idle) ht trivial id
      have hpc : (s.onSend t).pc = Function.update s.pc t .idle := by simp [Session.onSend, hq]
      refine ⟨?_, fun _ => ?_⟩
      · rw [hpc]
        exact hfree.token
      · rw [hpc]
        exact hfree
    | false =>
      have hpc : (s.onSend t).pc = Function.update s.pc t .registerSend := by
        simp [Session.onSend, hq]
      refine ⟨?_, fun hfalse => ?_⟩
      · rw [hpc]
        exact h.token.move ht (fun _ => trivial)
      · simp [Session.onSend, hq] at hfalse
  | disconnect ht => exact ⟨h.token, h.free⟩
  | processConnect ht hconn => exact h.outside (k := .onConnected) id rfl rfl rfl
  | onConnected ht => exact h.outside (k := .registerRecv) id rfl rfl rfl
  | @registerRecv t ht =>
    refine h.outside (k := if s.connected then .wsaRecv else .idle) ?_ rfl rfl rfl
    cases s.connected <;> exact id
  | @wsaRecv t result ht =>
    cases result with
    | accepted => exact h.outside (k := .idle) id rfl rfl rfl
    | failed errorCode => exact h.outside (k := .releaseRecv) id rfl rfl rfl
  | releaseRecv ht => exact h.outside (k := .idle) id rfl rfl rfl
  | @processRecv t n ht hout =>
    refine h.outside (k := if n = 0 then .idle else .onRecv) ?_ rfl rfl rfl
    split <;> exact id
  | @onRecv t overflow ht =>
    exact h.outside (hidle overflow .registerRecv id) rfl rfl rfl

/-- A thread of the receive path stays in it, or goes out of it. -/
theorem RecvToken.inside (h : RecvToken s) {t : T} {j k : Pc} (ht : s.pc t = j)
    (hjk : k.Receives → j.Receives) (hpc : s'.pc = Function.update s.pc t k)
    (hconn : s'.connecting = s.connecting) (hout : s'.recvsOutstanding = s.recvsOutstanding) :
    RecvToken s' := by
  rw [RecvToken, hpc, hconn, hout]
  exact Token.move h ht hjk

theorem recvToken_step (hstep : SessionStep s e s') (h : RecvToken s) : RecvToken s' := by
  cases hstep with
  | @send t b ht =>
    refine h.inside (k := if s.sendRegistered then .idle else .registerSend) ht ?_ rfl rfl rfl
    cases s.sendRegistered <;> exact id
  | @registerSend t ht =>
    refine h.inside (k := if s.connected then .drain else .idle) ht ?_ rfl rfl rfl
    cases s.connected <;> exact id
  | drain ht => exact h.inside (k := .wsaSend) ht id rfl rfl rfl
  | @wsaSend t result ht =>
    cases result with
    | accepted => exact h.inside (k := .idle) ht id rfl rfl rfl
    | failed errorCode => exact h.inside (k := .releaseSend) ht id rfl rfl rfl
  | releaseSend ht => exact h.inside (k := .idle) ht id rfl rfl rfl
  | @processSend t n ht hout =>
    refine h.inside (k := if n = 0 then .idle else .onSend) ht ?_ rfl rfl rfl
    split <;> exact id
  | @onSend t ht =>
    refine h.inside (k := if s.sendQueue.isEmpty then .idle else .registerSend) ht ?_ rfl rfl rfl
    split <;> exact id
  | disconnect ht => exact h
  | @processConnect t ht hconn =>
    have htoken : Token s.pc Pc.Receives (s.recvsOutstanding + 1) := by
      rw [RecvToken, hconn] at h
      exact h
    exact htoken.take
  | onConnected ht => exact h.inside (k := .registerRecv) ht (fun _ => trivial) rfl rfl rfl
  | registerRecv ht =>
    exact h.inside (k := if s.connected then .wsaRecv else .idle) ht (fun _ => trivial) rfl rfl rfl
  | @wsaRecv t result ht =>
    cases result with
    | accepted =>
      have hgive := Token.give (k := .idle) h ht trivial id
      rw [Nat.add_right_comm] at hgive
      exact hgive
    | failed errorCode =>
      exact h.inside (k := .releaseRecv) ht (fun _ => trivial) rfl rfl rfl
  | releaseRecv ht => exact h.inside (k := .idle) ht (fun _ => trivial) rfl rfl rfl
  | @processRecv t n ht hout =>
    obtain ⟨m, hm⟩ := Nat.exists_eq_succ_of_ne_zero hout.ne'
    have htoken : Token s.pc Pc.Receives (m + s.connecting.toNat + 1) := by
      rw [RecvToken, hm, Nat.succ_eq_add_one, Nat.add_right_comm] at h
      exact h
    change Token (Function.update s.pc t _) Pc.Receives
      (s.recvsOutstanding - 1 + s.connecting.toNat)
    rw [hm]
    exact htoken.take
  | @onRecv t overflow ht =>
    exact h.inside (k := if overflow then .idle else .registerRecv) ht (fun _ => trivial) rfl rfl rfl

end Tokens

end Zelda.ServerCore
