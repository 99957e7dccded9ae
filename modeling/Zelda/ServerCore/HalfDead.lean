import Zelda.ServerCore.SendQueue

/-!
# Socket calls that fail at once

`RegisterRecv` and `RegisterSend` hand the error of a failed `WSARecv` or `WSASend` to
`HandleError`, which disconnects the session for two codes and prints the others. After that nothing
is undone: the receive is not registered again, and the batch of the send is dropped.

`failedCall_alive_iff`: a failing call leaves the session either disconnected or intact, whatever
the other threads do meanwhile, exactly for the two codes or a session that is not connected.
-/

namespace Zelda.ServerCore

open Server (SocketResult)

variable {T β : Type*} {s s' mid : Session T β} {t : T} {errorCode : Int32}

/-- The session is disconnected, or it has a receive under way and has dropped nothing. -/
def Session.NotHalfDead (s : Session T β) : Prop :=
  s.connected = false ∨ 0 < s.recvsOutstanding ∧ s.discarded = []

/-! ## Disconnected for good -/

/-- The session has been connected, and is no longer. -/
def Session.Closed (s : Session T β) : Prop := s.connected = false ∧ s.connecting = false

section Step

variable [DecidableEq T] {e : SessionEvent T β}

theorem closed_step (hstep : SessionStep s e s') (h : s.Closed) : s'.Closed := by
  obtain ⟨hconnected, hconnecting⟩ := h
  cases hstep with
  | processConnect ht hconn => cases hconn.symm.trans hconnecting
  | @wsaSend t result ht =>
    cases result with
    | accepted => exact ⟨hconnected, hconnecting⟩
    | failed errorCode =>
      exact ⟨by simp [Session.wsaSend, Session.goto, Session.handleError, hconnected], hconnecting⟩
  | @wsaRecv t result ht =>
    cases result with
    | accepted => exact ⟨hconnected, hconnecting⟩
    | failed errorCode =>
      exact ⟨by simp [Session.wsaRecv, Session.goto, Session.handleError, hconnected], hconnecting⟩
  | processSend ht hout => exact ⟨by simp [Session.processSend, hconnected], hconnecting⟩
  | processRecv ht hout => exact ⟨by simp [Session.processRecv, hconnected], hconnecting⟩
  | onRecv ht => exact ⟨by simp [Session.onRecv, hconnected], hconnecting⟩
  | disconnect ht => exact ⟨rfl, hconnecting⟩
  | _ => exact ⟨hconnected, hconnecting⟩

/-! ## At a socket call -/

/-- The thread has found the session connected and is about to make a socket call. -/
def Pc.Calls : Pc → Prop
  | .drain | .wsaSend | .wsaRecv => True
  | _ => False

/-- The thread is about to take the queue. -/
def Pc.Fetches : Pc → Prop
  | .registerSend | .drain => True
  | _ => False

theorem Pc.Fetches.sends {k : Pc} (h : k.Fetches) : k.Sends := by
  cases k <;> trivial

theorem Pc.Loaded.sends {k : Pc} (h : k.Loaded) : k.Sends := by
  cases k <;> trivial

/-- A thread is at a socket call only after the session's connect has completed, and at a `WSASend`
it has something to send. -/
structure Calling (s : Session T β) : Prop where
  connecting : s.connecting = true → s.connected = false
  calls : ∀ {t}, (s.pc t).Calls → s.connecting = false
  queue : ∀ {t}, (s.pc t).Fetches → s.sendQueue ≠ []
  buffers : ∀ {t}, (s.pc t).Loaded → s.sendBuffers ≠ []

/-- A thread moves. It finds at its new point what it needs there, and takes nothing from the
others. -/
theorem Calling.move (h : Calling s) (t : T) {k : Pc} (hpc : s'.pc = Function.update s.pc t k)
    (hconnecting : s'.connecting = s.connecting)
    (hconnected : s.connected = false → s'.connected = false)
    (hcalls : k.Calls → s.connecting = false)
    (hqueue : k.Fetches → s'.sendQueue ≠ [])
    (hbuffers : k.Loaded → s'.sendBuffers ≠ [])
    (hothers : ∀ u, u ≠ t → ((s.pc u).Fetches → s'.sendQueue ≠ []) ∧
      ((s.pc u).Loaded → s'.sendBuffers ≠ [])) : Calling s' where
  connecting := by
    rw [hconnecting]
    exact fun htrue => hconnected (h.connecting htrue)
  calls hu := by
    rw [hconnecting]
    rw [hpc] at hu
    rcases holds_update hu with ⟨-, hk⟩ | ⟨-, hu⟩
    · exact hcalls hk
    · exact h.calls hu
  queue hu := by
    rw [hpc] at hu
    rcases holds_update hu with ⟨-, hk⟩ | ⟨hne, hu⟩
    · exact hqueue hk
    · exact (hothers _ hne).1 hu
  buffers hu := by
    rw [hpc] at hu
    rcases holds_update hu with ⟨-, hk⟩ | ⟨hne, hu⟩
    · exact hbuffers hk
    · exact (hothers _ hne).2 hu

/-- A move that leaves the queue and the event alone. -/
theorem Calling.outside (h : Calling s) (t : T) {k : Pc} (hpc : s'.pc = Function.update s.pc t k)
    (hconnecting : s'.connecting = s.connecting)
    (hconnected : s.connected = false → s'.connected = false)
    (hqueue : s'.sendQueue = s.sendQueue) (hbuffers : s'.sendBuffers = s.sendBuffers)
    (hcalls : k.Calls → s.connecting = false) (hk : ¬ k.Sends) : Calling s' := by
  apply h.move t hpc hconnecting hconnected hcalls (fun hf => absurd hf.sends hk)
    (fun hl => absurd hl.sends hk)
  intro u _
  rw [hqueue, hbuffers]
  exact ⟨h.queue, h.buffers⟩

theorem calling_step (hstep : SessionStep s e s') (htoken : SendToken s) (h : Calling s) :
    Calling s' := by
  -- while a thread has the right to send, no other thread counts on the queue or the event
  have alone : ∀ {t : T} {j : Pc} {p q : Prop}, s.pc t = j → j.Sends → ∀ u, u ≠ t →
      ((s.pc u).Fetches → p) ∧ ((s.pc u).Loaded → q) := by
    intro t j p q ht hj u hne
    have hnot : ¬ (s.pc u).Sends :=
      fun hu => hne (htoken.token.unique hu (by rw [ht]; exact hj))
    exact ⟨fun hu => absurd hu.sends hnot, fun hu => absurd hu.sends hnot⟩
  have hconn : s.connected = true → s.connecting = false := by
    intro hc
    by_contra htrue
    cases hc.symm.trans (h.connecting (eq_true_of_ne_false htrue))
  cases hstep with
  | @send t b ht =>
    have hne : s.sendQueue ++ [b] ≠ [] := by simp
    refine h.move t (k := if s.sendRegistered then .idle else .registerSend) rfl rfl id ?_
      (fun _ => hne) ?_ fun u _ => ⟨fun _ => hne, h.buffers⟩
    · split <;> exact False.elim
    · split <;> exact False.elim
  | @registerSend t ht =>
    refine h.move t (k := if s.connected then .drain else .idle) rfl rfl id ?_
      (fun _ => h.queue (t := t) (by rw [ht]; trivial)) ?_ (alone ht trivial)
    · split
      · exact fun _ => hconn ‹_›
      · exact False.elim
    · split <;> exact False.elim
  | @drain t ht =>
    refine h.move t (k := .wsaSend) rfl rfl id (fun _ => h.calls (t := t) (by rw [ht]; trivial))
      False.elim (fun _ => ?_) (alone ht trivial)
    have hqueue : s.sendQueue ≠ [] := h.queue (t := t) (by rw [ht]; trivial)
    exact List.append_ne_nil_of_right_ne_nil _ hqueue
  | @wsaSend t result ht =>
    cases result with
    | accepted => exact h.outside t (k := .idle) rfl rfl id rfl rfl False.elim id
    | failed errorCode =>
      refine h.move t (k := .releaseSend) rfl rfl (fun hfalse => ?_) False.elim False.elim
        (fun _ => h.buffers (t := t) (by rw [ht]; trivial)) (alone ht trivial)
      simp [Session.wsaSend, Session.goto, Session.handleError, hfalse]
  | @releaseSend t ht =>
    exact h.move t (k := .idle) rfl rfl id False.elim False.elim False.elim (alone ht trivial)
  | @processSend t n ht hout =>
    have hnot := htoken.token.nobody hout
    refine h.move t (k := if n = 0 then .idle else .onSend) rfl rfl (fun hfalse => ?_) ?_ ?_ ?_
      fun u _ => ⟨fun hu => absurd hu.sends (hnot u), fun hu => absurd hu.sends (hnot u)⟩
    · simp [Session.processSend, hfalse]
    all_goals split <;> exact False.elim
  | @onSend t ht =>
    cases hq : s.sendQueue with
    | nil =>
      refine h.move t (k := .idle) ?_ rfl id False.elim False.elim False.elim (alone ht trivial)
      simp [Session.onSend, hq]
    | cons b q =>
      refine h.move t (k := .registerSend) ?_ rfl id False.elim (fun _ => ?_) False.elim
        (alone ht trivial)
      · simp [Session.onSend, hq]
      · change s.sendQueue ≠ []
        simp [hq]
  | disconnect ht => exact ⟨fun _ => rfl, h.calls, h.queue, h.buffers⟩
  | @processConnect t ht _ =>
    have hback : ∀ {P : Pc → Prop}, ¬ P .onConnected → ∀ {u},
        P (Function.update s.pc t .onConnected u) → P (s.pc u) := by
      intro P hP u hu
      rcases holds_update hu with ⟨-, hk⟩ | ⟨-, hu⟩
      · exact absurd hk hP
      · exact hu
    exact ⟨fun htrue => Bool.noConfusion htrue, fun _ => rfl, fun hu => h.queue (hback id hu),
      fun hu => h.buffers (hback id hu)⟩
  | @onConnected t ht => exact h.outside t (k := .registerRecv) rfl rfl id rfl rfl False.elim id
  | @registerRecv t ht =>
    refine h.outside t (k := if s.connected then .wsaRecv else .idle) rfl rfl id rfl rfl ?_ ?_
    · split
      · exact fun _ => hconn ‹_›
      · exact False.elim
    · split <;> exact id
  | @wsaRecv t result ht =>
    cases result with
    | accepted => exact h.outside t (k := .idle) rfl rfl id rfl rfl False.elim id
    | failed errorCode =>
      refine h.outside t (k := .releaseRecv) rfl rfl (fun hfalse => ?_) rfl rfl False.elim id
      simp [Session.wsaRecv, Session.goto, Session.handleError, hfalse]
  | @releaseRecv t ht => exact h.outside t (k := .idle) rfl rfl id rfl rfl False.elim id
  | @processRecv t n ht hout =>
    refine h.outside t (k := if n = 0 then .idle else .onRecv) rfl rfl (fun hfalse => ?_) rfl rfl
      ?_ ?_
    · simp [Session.processRecv, hfalse]
    · split <;> exact False.elim
    · split <;> exact id
  | @onRecv t overflow ht =>
    refine h.outside t (k := if overflow then .idle else .registerRecv) rfl rfl (fun hfalse => ?_)
      rfl rfl ?_ ?_
    · simp [Session.onRecv, hfalse]
    · split <;> exact False.elim
    · split <;> exact id

/-- The threads other than `t` leave it where it is. -/
theorem pc_step (hstep : SessionStep s e s') (hne : e.thread ≠ t) : s'.pc t = s.pc t := by
  have hother : ∀ k, Function.update s.pc e.thread k t = s.pc t :=
    fun k => Function.update_of_ne hne.symm _ _
  cases hstep with
  | @wsaSend u result ht => cases result <;> exact hother _
  | @wsaRecv u result ht => cases result <;> exact hother _
  | disconnect ht => rfl
  | _ => exact hother _

/-! ## A call that fails -/

/-- Nothing about the other threads but that they take steps of the session. -/
abbrev Meanwhile (t : T) : Session T β → Session T β → Prop :=
  Reaches SessionStep fun _ e => e.thread ≠ t

/-- The `WSASend` or `WSARecv` that `t` is about to make fails with an error other than
`WSA_IO_PENDING`, and `RegisterSend` or `RegisterRecv` returns; meanwhile the other threads take any
steps. -/
inductive FailedCall (t : T) (errorCode : Int32) : Session T β → Session T β → Prop
  | wsaSend {s mid : Session T β} (ht : s.pc t = .wsaSend)
      (hmid : Meanwhile t (s.wsaSend t (.failed errorCode)) mid) :
      FailedCall t errorCode s (mid.releaseSend t)
  | wsaRecv {s mid : Session T β} (ht : s.pc t = .wsaRecv)
      (hmid : Meanwhile t (s.wsaRecv t (.failed errorCode)) mid) :
      FailedCall t errorCode s (mid.goto t .idle)

/-- What holds in every state of a session. -/
structure Invariants (s : Session T β) : Prop where
  send : SendToken s
  recv : RecvToken s
  calling : Calling s

theorem invariants_step (hstep : SessionStep s e s') (h : Invariants s) : Invariants s' :=
  ⟨sendToken_step hstep h.send, recvToken_step hstep h.recv, calling_step hstep h.send h.calling⟩

omit [DecidableEq T] in
theorem invariants_init : Invariants ({} : Session T β) where
  send := sendToken_init
  recv := recvToken_init
  calling := ⟨fun _ => rfl, False.elim, False.elim, False.elim⟩

theorem Meanwhile.invariants (hrun : Meanwhile t s mid) (h : Invariants s) : Invariants mid :=
  hrun.invariant (fun _ _ _ hs _ hstep => invariants_step hstep hs) h

theorem Meanwhile.pc_eq (hrun : Meanwhile t s mid) : mid.pc t = s.pc t := by
  refine Reaches.invariant (I := fun mid => mid.pc t = s.pc t) ?_ hrun rfl
  intro s₁ e s₂ hs hne hstep
  exact (pc_step hstep hne).trans hs

theorem Meanwhile.closed (hrun : Meanwhile t s mid) (h : s.Closed) : mid.Closed :=
  hrun.invariant (fun _ _ _ hs _ hstep => closed_step hstep hs) h

/-- After a failed call nothing but a disconnect keeps the session from being half dead. -/
theorem FailedCall.notHalfDead_iff (h : Invariants s) (hcall : FailedCall t errorCode s s') :
    s'.NotHalfDead ↔ s'.connected = false := by
  refine ⟨fun halive => halive.resolve_right ?_, Or.inl⟩
  rintro ⟨hrecv, hdiscarded⟩
  cases hcall with
  | @wsaSend mid ht hmid =>
    have hinv := hmid.invariants (invariants_step (.wsaSend ht) h)
    have hpc : mid.pc t = .releaseSend := hmid.pc_eq.trans (Function.update_self _ _ _)
    have hbuffers : mid.sendBuffers ≠ [] := hinv.calling.buffers (t := t) (by rw [hpc]; trivial)
    exact hbuffers (List.append_eq_nil_iff.1 hdiscarded).2
  | @wsaRecv mid ht hmid =>
    have hinv := hmid.invariants (invariants_step (.wsaRecv ht) h)
    have hpc : mid.pc t = .releaseRecv := hmid.pc_eq.trans (Function.update_self _ _ _)
    have hzero := hinv.recv.eq_zero hpc trivial
    change 0 < mid.recvsOutstanding at hrecv
    omega

/-- A failed call leaves the session disconnected if `HandleError` disconnects on its error, or the
session was not connected any more. -/
theorem FailedCall.connected_eq_false (h : Invariants s) (hcall : FailedCall t errorCode s s')
    (hor : (SocketResult.failed errorCode).resets = true ∨ s.connected = false) :
    s'.connected = false := by
  have hconnected : (s.connected && !(SocketResult.failed errorCode).resets) = false := by
    rcases hor with hresets | hfalse
    · simp [hresets]
    · simp [hfalse]
  cases hcall with
  | @wsaSend mid ht hmid =>
    have hconn : s.connecting = false := h.calling.calls (t := t) (by rw [ht]; trivial)
    exact (hmid.closed ⟨hconnected, hconn⟩).1
  | @wsaRecv mid ht hmid =>
    have hconn : s.connecting = false := h.calling.calls (t := t) (by rw [ht]; trivial)
    exact (hmid.closed ⟨hconnected, hconn⟩).1

/-- **When a failed call leaves no half-dead session**: a `WSASend` or `WSARecv` that fails at once
leaves the session disconnected, or receiving and with nothing dropped, whatever the other threads
do until it returns, exactly if its error is one of the two on which `HandleError` disconnects or
the session is no longer connected. -/
theorem failedCall_notHalfDead_iff (hs : Reaches SessionStep (fun _ _ => True) {} s)
    (ht : s.pc t = .wsaSend ∨ s.pc t = .wsaRecv) (errorCode : Int32) :
    (∀ s', FailedCall t errorCode s s' → s'.NotHalfDead) ↔
      (SocketResult.failed errorCode).resets = true ∨ s.connected = false := by
  have h : Invariants s :=
    hs.invariant (fun _ _ _ hs _ hstep => invariants_step hstep hs) invariants_init
  constructor
  · intro hall
    have hreturn : ∃ s', FailedCall t errorCode s s' ∧
        s'.connected = (s.connected && !(SocketResult.failed errorCode).resets) := by
      rcases ht with ht | ht
      · exact ⟨_, .wsaSend ht (.refl _), rfl⟩
      · exact ⟨_, .wsaRecv ht (.refl _), rfl⟩
    obtain ⟨s', hcall, hconnected⟩ := hreturn
    have hfalse := (hcall.notHalfDead_iff h).1 (hall s' hcall)
    rw [hconnected] at hfalse
    cases hc : s.connected with
    | false => exact .inr rfl
    | true => exact .inl (by simpa [hc] using hfalse)
  · intro hor s' hcall
    exact .inl (hcall.connected_eq_false h hor)

end Step

/-- A session that has just been connected, before its first `WSARecv`. -/
def beforeReceive : List (SessionEvent ℕ ℕ) := [.processConnect 0, .onConnected 0, .registerRecv 0]

theorem reaches_beforeReceive :
    Reaches SessionStep (fun _ _ => True) {} (beforeReceive.foldl Session.act {}) :=
  (reaches_of_follows (C := fun _ _ => true) _ (by decide)).mono fun _ _ _ => trivial

theorem failedCall_notHalfDead_reset :
    (beforeReceive.foldl Session.act {}).connected = true ∧
      ∀ s', FailedCall 0 Server.wsaeConnReset (beforeReceive.foldl Session.act {}) s' →
        s'.NotHalfDead :=
  ⟨rfl, (failedCall_notHalfDead_iff reaches_beforeReceive (.inr rfl) Server.wsaeConnReset).2
    (.inl (by decide))⟩

/-- A `WSARecv` that fails with `WSAENOBUFS` leaves the session connected, and it never receives
again. -/
theorem not_failedCall_notHalfDead :
    ¬ ∀ (s s' : Session ℕ ℕ) (t : ℕ) (errorCode : Int32),
      Reaches SessionStep (fun _ _ => True) {} s → FailedCall t errorCode s s' →
        s'.NotHalfDead := by
  intro hall
  have hcall : FailedCall 0 10055 (beforeReceive.foldl Session.act {})
      (((beforeReceive.foldl Session.act {}).wsaRecv 0 (.failed 10055)).goto 0 .idle) :=
    .wsaRecv rfl (.refl _)
  rcases hall _ _ 0 10055 reaches_beforeReceive hcall with hfalse | ⟨hrecv, -⟩
  · exact absurd hfalse (by decide)
  · exact absurd hrecv (by decide)

end Zelda.ServerCore
