import Zelda.Foundations.Runs
import Zelda.ServerCore.Builds
import Zelda.ServerCore.SocketResult

/-!
# Completions

`IocpCore::Dispatch` takes one completion after the other and passes it to the session or the
listener it belongs to, whether the operation has succeeded or failed. `Session::Dispatch` is told
the number of bytes only, and `ProcessConnect` not even that.

* `connected_truthful_of_run`: as long as every `ConnectEx` completes successfully, a session that
  is connected, or in `Service::_sessions`, is one whose `ConnectEx` or `AcceptEx` has succeeded and
  that has not been disconnected since.
* `not_truthful_failedConnect`: a failed `ConnectEx` makes the session connected.

The order of the completions is arbitrary; which operations are in flight is not tracked.
-/

namespace Zelda.ServerCore

open Server (SocketResult)

variable {ι : Type*} {i j : ι}

/-! ## Completions and what happens on them -/

/-- `enum class EventType` -/
inductive EventType
  | connect | disconnect | accept | recv | send
  deriving DecidableEq, Repr

/-- What `GetQueuedCompletionStatus` hands out: the event, the session it is about, whether the
operation has succeeded, and the number of bytes. -/
structure Completion (ι : Type*) where
  event : EventType
  session : ι
  ok : Bool
  numOfBytes : ℕ
  deriving DecidableEq

/-- What content code does to sessions in a callback. A `Send` may call `WSASend`. -/
inductive Call (ι : Type*)
  | send (i : ι) (wsaSend : Option SocketResult)
  | disconnect (i : ι)

/-- What happens while a completion is processed: the calls made in the callback, the outcomes of
the checks on the receive buffer, and those of the socket calls. -/
structure Course (ι : Type*) where
  calls : List (Call ι) := []
  writeOverflow : Bool := false
  readOverflow : Bool := false
  wsaRecv : SocketResult := .accepted
  wsaSend : Option SocketResult := none

/-- What the listener asks Winsock about the socket of an `AcceptEx` that has completed,
successfully or not. -/
structure Winsock (ι : Type*) where
  setUpdateAcceptSocket : ι → Bool → Bool
  getpeername : ι → Bool → Bool

/-- What the history records. -/
inductive Happening (ι : Type*)
  /-- A `ConnectEx` or `AcceptEx` has completed. -/
  | completed (i : ι) (ok : Bool)
  | onConnected (i : ι)
  /-- `Disconnect` has taken effect. -/
  | disconnected (i : ι)
  deriving DecidableEq

/-- A service and the sessions it has made. -/
structure Connections (ι : Type*) extends Service ι where
  /-- `Session::_connected` -/
  connected : ι → Bool := fun _ => false
  history : List (Happening ι) := []

namespace Connections

variable [DecidableEq ι] (s : Connections ι)

def record (e : Happening ι) : Connections ι := { s with history := s.history ++ [e] }

/-- `Session::Disconnect`, in the build that evaluates the assertion of `ReleaseSession`. The calls
of `OnDisconnected` follow as calls of their own. -/
def disconnect (i : ι) : Connections ι :=
  if s.connected i then
    { toService := s.toService.released i
      connected := Function.update s.connected i false
      history := s.history ++ [.disconnected i] }
  else s

/-- `Session::HandleError` for a call that has failed. -/
def handleError (i : ι) (result : SocketResult) : Connections ι :=
  if result.resets then s.disconnect i else s

/-- `Session::RegisterSend` and `Session::RegisterRecv`, with the outcome of the socket call. -/
def register (i : ι) (result : SocketResult) : Connections ι :=
  if s.connected i then s.handleError i result else s

/-- A call of content code. -/
def call : Call ι → Connections ι
  | .send i (some wsaSend) => s.register i wsaSend
  | .send _ none => s
  | .disconnect i => s.disconnect i

def calls (cs : List (Call ι)) : Connections ι := cs.foldl call s

/-- `Session::ProcessConnect` -/
def processConnect (i : ι) (c : Course ι) : Connections ι :=
  let s := { s with
    toService := s.toService.addSession i
    connected := Function.update s.connected i true }
  let s := (s.record (.onConnected i)).calls c.calls
  s.register i c.wsaRecv

/-- `Session::ProcessRecv` -/
def processRecv (i : ι) (numOfBytes : ℕ) (c : Course ι) : Connections ι :=
  if numOfBytes = 0 then s.disconnect i
  else if c.writeOverflow then s.disconnect i
  else
    let s := s.calls c.calls
    if c.readOverflow then s.disconnect i else s.register i c.wsaRecv

/-- `Session::ProcessSend` -/
def processSend (i : ι) (numOfBytes : ℕ) (c : Course ι) : Connections ι :=
  if numOfBytes = 0 then s.disconnect i
  else
    let s := s.calls c.calls
    match c.wsaSend with
    | some wsaSend => s.register i wsaSend
    | none => s

/-- `Listener::ProcessAccept`, for the session of the event. -/
def processAccept (W : Winsock ι) (i : ι) (ok : Bool) (c : Course ι) : Connections ι :=
  if W.setUpdateAcceptSocket i ok = false then s
  else if W.getpeername i ok = false then s
  else s.processConnect i c

/-- `Session::Dispatch` and `Listener::Dispatch` -/
def objectDispatch (W : Winsock ι) (e : Completion ι) (c : Course ι) : Connections ι :=
  match e.event with
  | .connect => (s.record (.completed e.session e.ok)).processConnect e.session c
  | .disconnect => s
  | .recv => s.processRecv e.session e.numOfBytes c
  | .send => s.processSend e.session e.numOfBytes c
  | .accept => (s.record (.completed e.session e.ok)).processAccept W e.session e.ok c

/-- `IocpCore::Dispatch`. Without a completion the wait has timed out. -/
def dispatch (W : Winsock ι) : Option (Completion ι) → Course ι → Connections ι
  | none, _ => s
  | some e, c => if e.ok then s.objectDispatch W e c else s.objectDispatch W e c

end Connections

/-! ## The history -/

/-- The session's `ConnectEx` or `AcceptEx` has succeeded, and it has not been disconnected
since. -/
def Live (i : ι) (history : List (Happening ι)) : Prop :=
  ∃ before after, history = before ++ .completed i true :: after ∧ .disconnected i ∉ after

theorem live_completed (i : ι) (history : List (Happening ι)) :
    Live i (history ++ [.completed i true]) :=
  ⟨history, [], rfl, List.not_mem_nil⟩

theorem Live.append {history : List (Happening ι)} (h : Live i history) {e : Happening ι}
    (he : e ≠ .disconnected i) : Live i (history ++ [e]) := by
  obtain ⟨before, after, rfl, hafter⟩ := h
  refine ⟨before, after ++ [e], by simp, ?_⟩
  rw [List.mem_append, List.mem_singleton]
  rintro (hmem | heq)
  · exact hafter hmem
  · exact he heq.symm

/-- The connected flags and the service's sessions tell the truth. -/
structure Truthful (s : Connections ι) : Prop where
  connected : ∀ i, s.connected i = true → Live i s.history
  sessions : ∀ i ∈ s.sessions, Live i s.history
  onConnected : ∀ i, .onConnected i ∈ s.history → .completed i true ∈ s.history

section Steps

variable [DecidableEq ι] {s : Connections ι}

omit [DecidableEq ι] in
theorem Truthful.record (h : Truthful s) {e : Happening ι} (he : ∀ i, e ≠ .disconnected i)
    (hon : ∀ i, e = .onConnected i → .completed i true ∈ s.history) : Truthful (s.record e) where
  connected i hi := (h.connected i hi).append (he i)
  sessions i hi := (h.sessions i hi).append (he i)
  onConnected i hi := by
    apply List.mem_append_left
    rcases List.mem_append.1 hi with hmem | hmem
    · exact h.onConnected i hmem
    · exact hon i (List.mem_singleton.1 hmem).symm

theorem Truthful.disconnect (h : Truthful s) (i : ι) : Truthful (s.disconnect i) := by
  rw [Connections.disconnect]
  split
  · have hlive : ∀ {j}, j ≠ i → Live j s.history → Live j (s.history ++ [.disconnected i]) :=
      fun hne hj => hj.append (by simpa using hne.symm)
    refine ⟨fun j hj => ?_, fun j hj => ?_, fun j hj => ?_⟩
    · rcases eq_or_ne j i with rfl | hne
      · simp at hj
      · change Function.update s.connected i false j = true at hj
        rw [Function.update_of_ne hne] at hj
        exact hlive hne (h.connected j hj)
    · obtain ⟨hne, hmem⟩ := Finset.mem_erase.1 hj
      exact hlive hne (h.sessions j hmem)
    · apply List.mem_append_left
      apply h.onConnected
      simpa using hj
  · exact h

theorem Truthful.register (h : Truthful s) (i : ι) (result : SocketResult) :
    Truthful (s.register i result) := by
  rw [Connections.register, Connections.handleError]
  split
  · split
    · exact h.disconnect i
    · exact h
  · exact h

theorem Truthful.calls (h : Truthful s) (cs : List (Call ι)) : Truthful (s.calls cs) := by
  induction cs generalizing s with
  | nil => exact h
  | cons c cs ih =>
    apply ih
    match c with
    | .send i (some wsaSend) => exact h.register i wsaSend
    | .send _ none => exact h
    | .disconnect i => exact h.disconnect i

/-- `ProcessConnect` for a session whose operation has just succeeded. -/
theorem Truthful.processConnect (h : Truthful s) (hlive : Live i s.history) (c : Course ι) :
    Truthful (s.processConnect i c) := by
  have hconnected : Truthful { s with
      toService := s.toService.addSession i
      connected := Function.update s.connected i true } := by
    refine ⟨fun j hj => ?_, fun j hj => ?_, h.onConnected⟩
    · rcases eq_or_ne j i with rfl | hne
      · exact hlive
      · exact h.connected j (by simpa [hne] using hj)
    · rcases Finset.mem_insert.1 hj with rfl | hmem
      · exact hlive
      · exact h.sessions j hmem
  refine ((hconnected.record (by simp) fun j hj => ?_).calls c.calls).register i c.wsaRecv
  obtain rfl : i = j := by simpa using hj
  obtain ⟨before, after, heq, -⟩ := hlive
  change Happening.completed i true ∈ s.history
  rw [heq]
  simp

/-- The condition on a completion: a `ConnectEx` that completes has succeeded. -/
def Completion.ConnectSucceeds (e : Completion ι) : Prop := e.event = .connect → e.ok = true

variable {W : Winsock ι}

theorem Truthful.objectDispatch (hpeer : ∀ i, W.getpeername i false = false) (h : Truthful s)
    {e : Completion ι} (he : e.ConnectSucceeds) (c : Course ι) :
    Truthful (s.objectDispatch W e c) := by
  have hrecord : Truthful (s.record (.completed e.session e.ok)) := h.record (by simp) (by simp)
  have hlive : e.ok = true → Live e.session (s.record (.completed e.session e.ok)).history := by
    intro hok
    rw [hok]
    exact live_completed _ _
  rw [Connections.objectDispatch]
  cases hevent : e.event with
  | connect => exact hrecord.processConnect (hlive (he hevent)) c
  | disconnect => exact h
  | accept =>
    simp only [Connections.processAccept]
    split
    · exact hrecord
    · split
      · exact hrecord
      · rename_i hname
        refine hrecord.processConnect (hlive ?_) c
        by_contra hfalse
        rw [eq_false_of_ne_true hfalse, hpeer] at hname
        exact hname rfl
  | recv =>
    simp only [Connections.processRecv]
    split
    · exact h.disconnect _
    · split
      · exact h.disconnect _
      · split
        · exact (h.calls _).disconnect _
        · exact (h.calls _).register _ _
  | send =>
    simp only [Connections.processSend]
    split
    · exact h.disconnect _
    · split
      · exact (h.calls _).register _ _
      · exact h.calls _

/-! ## What a failed connect leaves behind -/

/-- The history goes on with disconnects only. -/
def OnlyDisconnects (s s' : Connections ι) : Prop :=
  ∃ es, s'.history = s.history ++ es ∧ ∀ e ∈ es, ∃ i, e = .disconnected i

theorem onlyDisconnects_disconnect (s : Connections ι) (i : ι) :
    OnlyDisconnects s (s.disconnect i) := by
  rw [Connections.disconnect]
  split
  · exact ⟨[.disconnected i], rfl, by simp⟩
  · exact ⟨[], (List.append_nil _).symm, by simp⟩

theorem onlyDisconnects_register (s : Connections ι) (i : ι) (result : SocketResult) :
    OnlyDisconnects s (s.register i result) := by
  have hrefl : OnlyDisconnects s s := ⟨[], (List.append_nil _).symm, by simp⟩
  rw [Connections.register, Connections.handleError]
  split
  · split
    · exact onlyDisconnects_disconnect s i
    · exact hrefl
  · exact hrefl

omit [DecidableEq ι] in
theorem OnlyDisconnects.trans {s₁ s₂ s₃ : Connections ι} (h₁₂ : OnlyDisconnects s₁ s₂)
    (h₂₃ : OnlyDisconnects s₂ s₃) : OnlyDisconnects s₁ s₃ := by
  obtain ⟨es₁, heq₁, hes₁⟩ := h₁₂
  obtain ⟨es₂, heq₂, hes₂⟩ := h₂₃
  refine ⟨es₁ ++ es₂, by rw [heq₂, heq₁, List.append_assoc], fun e he => ?_⟩
  exact (List.mem_append.1 he).elim (hes₁ e) (hes₂ e)

theorem onlyDisconnects_calls (s : Connections ι) (cs : List (Call ι)) :
    OnlyDisconnects s (s.calls cs) := by
  induction cs generalizing s with
  | nil => exact ⟨[], (List.append_nil _).symm, by simp⟩
  | cons c cs ih =>
    have hcall : OnlyDisconnects s (s.call c) := by
      match c with
      | .send i (some wsaSend) => exact onlyDisconnects_register s i wsaSend
      | .send _ none => exact ⟨[], (List.append_nil _).symm, by simp⟩
      | .disconnect i => exact onlyDisconnects_disconnect s i
    exact hcall.trans (ih (s.call c))

/-- A `ConnectEx` that fails has `OnConnected` called for a session that has not been connected. -/
theorem not_truthful_of_failed {e : Completion ι} (hevent : e.event = .connect)
    (hok : e.ok = false) (hnew : .completed e.session true ∉ s.history) (c : Course ι) :
    ¬ Truthful (s.dispatch W (some e) c) := by
  intro h
  have hdispatch : s.dispatch W (some e) c =
      (s.record (.completed e.session false)).processConnect e.session c := by
    simp [Connections.dispatch, Connections.objectDispatch, hevent, hok]
  obtain ⟨es, heq, hes⟩ := (onlyDisconnects_calls _ c.calls).trans
    (onlyDisconnects_register ((Connections.record
      { s.record (.completed e.session false) with
        toService := s.toService.addSession e.session
        connected := Function.update s.connected e.session true }
      (.onConnected e.session)).calls c.calls) e.session c.wsaRecv)
  have hhistory : (s.dispatch W (some e) c).history =
      (s.history ++ [.completed e.session false] ++ [.onConnected e.session]) ++ es :=
    (congrArg Connections.history hdispatch).trans heq
  have hcompleted := h.onConnected e.session (by rw [hhistory]; simp)
  rw [hhistory] at hcompleted
  have hmem : .completed e.session true ∈ es := by simpa [hnew] using hcompleted
  obtain ⟨i, hi⟩ := hes _ hmem
  cases hi

/-! ## Runs -/

/-- `IocpCore::Dispatch` is called again and again. -/
def DispatchStep (W : Winsock ι) (s : Connections ι) (e : Option (Completion ι) × Course ι)
    (s' : Connections ι) : Prop :=
  s' = s.dispatch W e.1 e.2

/-- **The connected flag tells the truth** in every run in which no `ConnectEx` completes with a
failure; a connect that completes with a failure makes it lie. -/
theorem connected_truthful_of_run (hpeer : ∀ i, W.getpeername i false = false)
    (h : Reaches (DispatchStep W) (fun _ e => ∀ c ∈ e.1, c.ConnectSucceeds) {} s) :
    Truthful s ∧ ∀ (e : Completion ι) (c : Course ι), .completed e.session true ∉ s.history →
      (Truthful (s.dispatch W (some e) c) ↔ e.ConnectSucceeds) := by
  have hdispatch : ∀ {s : Connections ι} {e : Completion ι} (c : Course ι), Truthful s →
      e.ConnectSucceeds → Truthful (s.dispatch W (some e) c) := by
    intro s e c hs he
    simp only [Connections.dispatch, ite_self]
    exact hs.objectDispatch hpeer he c
  have htruthful : Truthful s := by
    refine h.invariant ?_ ⟨by simp, by simp, by simp⟩
    rintro s ⟨_ | e, c⟩ s' hs he rfl
    · exact hs
    · exact hdispatch c hs (he e rfl)
  refine ⟨htruthful, fun e c hnew => ⟨fun h' hevent => ?_, hdispatch c htruthful⟩⟩
  by_contra hok
  exact not_truthful_of_failed hevent (eq_false_of_ne_true hok) hnew c h'

end Steps

/-- Winsock as it is: both calls fail on a socket that is not connected. -/
def winsock : Winsock ℕ where
  setUpdateAcceptSocket _ ok := ok
  getpeername _ ok := ok

/-- One connect succeeds, and one accept fails. -/
theorem connected_truthful_connected : ∃ s : Connections ℕ,
    s.connected 0 = true ∧ s.connected 1 = false ∧ Truthful s := by
  have hrun : Reaches (DispatchStep winsock) (fun _ e => ∀ c ∈ e.1, c.ConnectSucceeds) {} _ :=
    .tail (e := (some ⟨.accept, 1, false, 0⟩, {}))
      (.single (e := (some ⟨.connect, 0, true, 0⟩, {})) (by simp [Completion.ConnectSucceeds]) rfl)
      (by simp [Completion.ConnectSucceeds]) rfl
  exact ⟨_, rfl, rfl, (connected_truthful_of_run (fun _ => rfl) hrun).1⟩

/-- The server is not there: the `ConnectEx` of the client completes with a failure, and then its
`WSARecv` fails with `WSAENOTCONN`. -/
theorem not_truthful_failedConnect :
    ¬ ∀ s : Connections ℕ, Reaches (DispatchStep winsock) (fun _ _ => True) {} s → Truthful s := by
  intro hall
  have htruthful := hall _ (.single (e := (some ⟨.connect, 0, false, 0⟩,
    { wsaRecv := .failed 10057 })) trivial rfl)
  exact not_truthful_of_failed rfl rfl List.not_mem_nil _ htruthful

end Zelda.ServerCore
