import Zelda.ServerCore.Session

/-!
# The send queue

What the threads of a session do to its send queue, when every `WSASend` is accepted.

* `sends_in_order`: at most one `WSASend` is under way, and the batches handed over, followed by the
  queue, are the buffers in the order in which their `Send` took the lock.
* `sends_go_on`: a connected session with a nonempty queue has a `WSASend` under way or a thread
  that is about to issue one, provided no `RegisterSend` asks `IsConnected` before the session is
  connected. One that does (`stuck_of_early_registerSend`) leaves `_sendRegistered` set with nobody
  in charge, and nothing is ever sent (`stuck_forever`).
-/

namespace Zelda.ServerCore

open Server (SocketResult)

variable {T β : Type*} {s s' : Session T β} {e : SessionEvent T β}

/-- If the event calls `WSASend`, the call is accepted. -/
def SessionEvent.accepted : SessionEvent T β → Bool
  | .wsaSend _ result => result = .accepted
  | _ => true

/-! ## Order -/

/-- The thread has a batch in `_sendEvent.sendBuffers`. -/
def Pc.Loaded : Pc → Prop
  | .wsaSend | .releaseSend => True
  | _ => False

/-- The buffers of the event belong to a `WSASend`, and the batches handed over continue with the
queue. -/
structure InOrder (s : Session T β) : Prop where
  buffers : s.sendBuffers ≠ [] → Held s.pc Pc.Loaded s.sendsOutstanding
  sent : s.handed.flatten ++ s.sendQueue = s.sent

/-- The batches of the accepted `WSASend` are those handed over, but for the one a thread is about
to pass on. -/
structure Issued (s : Session T β) : Prop where
  before : ∀ {t}, s.pc t = .wsaSend → s.handed = s.issued ++ [s.sendBuffers]
  after : (∀ t, s.pc t ≠ .wsaSend) → s.handed = s.issued

/-- The event is empty when a thread is about to fill it. -/
theorem InOrder.buffers_eq_nil (h : InOrder s) (htoken : SendToken s) {t : T}
    (ht : s.pc t = .drain) : s.sendBuffers = [] := by
  by_contra hne
  rcases h.buffers hne with hout | ⟨u, hu⟩
  · have hzero := htoken.token.eq_zero ht trivial
    omega
  · have hsends : ∀ {k : Pc}, k.Loaded → k.Sends := fun {k} => by
      cases k <;> simp [Pc.Loaded, Pc.Sends]
    have hut : u = t := htoken.token.unique (hsends hu) (by rw [ht]; trivial)
    rw [hut, ht] at hu
    exact hu

/-- Nobody is at its `WSASend`. -/
theorem Issued.of_nobody (hbefore : s.handed = s.issued) (hnone : ∀ t, s.pc t ≠ .wsaSend) :
    Issued s :=
  ⟨fun ht => absurd ht (hnone _), fun _ => hbefore⟩

/-- A thread elsewhere in the send path keeps the others from their `WSASend`. -/
theorem SendToken.ne_wsaSend (h : SendToken s) {t : T} {j : Pc} (ht : s.pc t = j) (hj : j.Sends)
    (hne : j ≠ .wsaSend) (u : T) : s.pc u ≠ .wsaSend := by
  intro hu
  have hut : u = t := h.token.unique (by rw [hu]; trivial) (by rw [ht]; exact hj)
  rw [hut, ht] at hu
  exact hne hu

variable [DecidableEq T]

theorem ne_update {pc : T → Pc} {k a : Pc} (h : ∀ u, pc u ≠ a) (hk : k ≠ a) (t u : T) :
    Function.update pc t k u ≠ a := by
  rcases eq_or_ne u t with rfl | hne
  · rwa [Function.update_self]
  · rw [Function.update_of_ne hne]
    exact h u

/-- A thread without a batch moves. -/
theorem InOrder.move (h : InOrder s) {t : T} {j k : Pc} (ht : s.pc t = j) (hj : ¬ j.Loaded)
    (hpc : s'.pc = Function.update s.pc t k) (hbuf : s'.sendBuffers = s.sendBuffers)
    (hout : s'.sendsOutstanding = s.sendsOutstanding)
    (hsent : s'.handed.flatten ++ s'.sendQueue = s'.sent) : InOrder s' where
  buffers := by
    rw [hpc, hbuf, hout]
    exact fun hne => (h.buffers hne).move ht (fun hj' => absurd hj' hj)
  sent := hsent

theorem inOrder_step (hstep : SessionStep s e s') (htoken : SendToken s) (h : InOrder s) :
    InOrder s' := by
  cases hstep with
  | @send t b ht =>
    refine h.move ht id rfl rfl rfl ?_
    change s.handed.flatten ++ (s.sendQueue ++ [b]) = s.sent ++ [b]
    rw [← List.append_assoc, h.sent]
  | registerSend ht => exact h.move ht id rfl rfl rfl h.sent
  | drain ht =>
    refine ⟨fun _ => .of_self trivial, ?_⟩
    change (s.handed ++ [s.sendBuffers ++ s.sendQueue]).flatten ++ [] = s.sent
    rw [h.buffers_eq_nil htoken ht, List.flatten_append, List.append_nil, List.nil_append,
      List.flatten_singleton, h.sent]
  | @wsaSend t result ht =>
    cases result with
    | accepted => exact ⟨fun _ => .inl (Nat.succ_pos _), h.sent⟩
    | failed errorCode => exact ⟨fun _ => .of_self trivial, h.sent⟩
  | releaseSend ht => exact ⟨fun hne => absurd rfl hne, h.sent⟩
  | processSend ht hout => exact ⟨fun hne => absurd rfl hne, h.sent⟩
  | onSend ht => exact h.move ht id rfl rfl rfl h.sent
  | disconnect ht => exact ⟨h.buffers, h.sent⟩
  | processConnect ht hconn => exact h.move ht id rfl rfl rfl h.sent
  | onConnected ht => exact h.move ht id rfl rfl rfl h.sent
  | registerRecv ht => exact h.move ht id rfl rfl rfl h.sent
  | @wsaRecv t result ht => cases result <;> exact h.move ht id rfl rfl rfl h.sent
  | releaseRecv ht => exact h.move ht id rfl rfl rfl h.sent
  | processRecv ht hout => exact h.move ht id rfl rfl rfl h.sent
  | onRecv ht => exact h.move ht id rfl rfl rfl h.sent

/-- A thread that is not, and will not be, at its `WSASend` moves. -/
theorem Issued.move (h : Issued s) {t : T} {j k : Pc} (ht : s.pc t = j) (hj : j ≠ .wsaSend)
    (hk : k ≠ .wsaSend) (hpc : s'.pc = Function.update s.pc t k)
    (hbuf : s'.sendBuffers = s.sendBuffers) (hhanded : s'.handed = s.handed)
    (hissued : s'.issued = s.issued) : Issued s' := by
  have hiff : ∀ u, s'.pc u = .wsaSend ↔ s.pc u = .wsaSend := by
    intro u
    rw [hpc]
    rcases eq_or_ne u t with rfl | hne
    · rw [Function.update_self, ht]
      exact iff_of_false hk hj
    · rw [Function.update_of_ne hne]
  constructor
  · intro u hu
    rw [hhanded, hissued, hbuf]
    exact h.before ((hiff u).1 hu)
  · intro hnone
    rw [hhanded, hissued]
    exact h.after fun u hu => hnone u ((hiff u).2 hu)

theorem issued_step (hstep : SessionStep s e s') (he : e.accepted) (htoken : SendToken s)
    (h : Issued s) : Issued s' := by
  cases hstep with
  | @send t b ht =>
    refine h.move (k := if s.sendRegistered then .idle else .registerSend) ht ?_ ?_ rfl rfl rfl rfl
    · simp
    · split <;> simp
  | @registerSend t ht =>
    refine h.move (k := if s.connected then .drain else .idle) ht ?_ ?_ rfl rfl rfl rfl
    · simp
    · split <;> simp
  | @drain t ht =>
    have hnone := htoken.ne_wsaSend ht trivial (by simp)
    constructor
    · intro u _
      change s.handed ++ [s.sendBuffers ++ s.sendQueue] =
        s.issued ++ [s.sendBuffers ++ s.sendQueue]
      rw [h.after hnone]
    · exact fun hnone' => absurd (Function.update_self t _ s.pc) (hnone' t)
  | @wsaSend t result ht =>
    obtain rfl : result = .accepted := of_decide_eq_true he
    have hfree := htoken.token.release (k := .idle) ht trivial id
    refine .of_nobody (h.before ht) fun u hu => hfree.nobody u ?_
    change Function.update s.pc t .idle u = .wsaSend at hu
    rw [hu]
    trivial
  | @releaseSend t ht =>
    have hnone := htoken.ne_wsaSend ht trivial (by simp)
    exact .of_nobody (h.after hnone) (ne_update hnone (by simp) t)
  | @processSend t n ht hout =>
    have hnone : ∀ u, s.pc u ≠ .wsaSend := by
      intro u hu
      apply htoken.token.nobody hout u
      rw [hu]
      trivial
    refine .of_nobody (h.after hnone) (ne_update (k := if n = 0 then .idle else .onSend) hnone ?_ t)
    split <;> simp
  | @onSend t ht =>
    refine h.move (k := if s.sendQueue.isEmpty then .idle else .registerSend) ht ?_ ?_ rfl rfl rfl rfl
    · simp
    · split <;> simp
  | disconnect ht => exact ⟨h.before, h.after⟩
  | processConnect ht hconn => exact h.move (k := .onConnected) ht (by simp) (by simp) rfl rfl rfl rfl
  | onConnected ht => exact h.move (k := .registerRecv) ht (by simp) (by simp) rfl rfl rfl rfl
  | @registerRecv t ht =>
    refine h.move (k := if s.connected then .wsaRecv else .idle) ht ?_ ?_ rfl rfl rfl rfl
    · simp
    · split <;> simp
  | @wsaRecv t result ht =>
    cases result with
    | accepted => exact h.move (k := .idle) ht (by simp) (by simp) rfl rfl rfl rfl
    | failed errorCode => exact h.move (k := .releaseRecv) ht (by simp) (by simp) rfl rfl rfl rfl
  | releaseRecv ht => exact h.move (k := .idle) ht (by simp) (by simp) rfl rfl rfl rfl
  | @processRecv t n ht hout =>
    refine h.move (k := if n = 0 then .idle else .onRecv) ht ?_ ?_ rfl rfl rfl rfl
    · simp
    · split <;> simp
  | @onRecv t overflow ht =>
    refine h.move (k := if overflow then .idle else .registerRecv) ht ?_ ?_ rfl rfl rfl rfl
    · simp
    · split <;> simp

/-- **Order and exclusivity of sends**: with every `WSASend` accepted, at most one is under way, and
the batches handed over, followed by the queue, are what was sent. The accepted calls have carried
these batches, but for the one that a thread has taken from the queue and is about to pass on. -/
theorem sends_in_order
    (h : Reaches SessionStep (fun _ e => e.accepted) ({} : Session T β) s) :
    s.sendsOutstanding ≤ 1 ∧ s.handed.flatten ++ s.sendQueue = s.sent ∧
      ((∀ t, s.pc t ≠ .wsaSend) → s.handed = s.issued) ∧
      ∀ t, s.pc t = .wsaSend → s.handed = s.issued ++ [s.sendBuffers] := by
  have hinv : SendToken s ∧ InOrder s ∧ Issued s := by
    refine h.invariant (I := fun s => SendToken s ∧ InOrder s ∧ Issued s) ?_ ?_
    · intro s e s' ⟨htoken, horder, hissued⟩ he hstep
      exact ⟨sendToken_step hstep htoken, inOrder_step hstep htoken horder,
        issued_step hstep he htoken hissued⟩
    · exact ⟨sendToken_init, ⟨fun hne => absurd rfl hne, rfl⟩, .of_nobody rfl (by simp)⟩
  obtain ⟨htoken, horder, hissued⟩ := hinv
  exact ⟨htoken.token.le_one, horder.sent, hissued.after, fun t => hissued.before⟩

/-- Thread 0 connects the session. Threads 1 and 2 send 7 and 8; thread 1 issues the 7, thread 2
completes it and issues the 8 together with the 9 that thread 1 has sent meanwhile. -/
def twoBatches : List (SessionEvent ℕ ℕ) :=
  [.processConnect 0, .send 1 7, .registerSend 1, .drain 1, .send 2 8, .wsaSend 1 .accepted,
    .processSend 2 4, .send 1 9, .onSend 2, .registerSend 2, .drain 2, .wsaSend 2 .accepted]

theorem sends_in_order_twoBatches :
    ∃ s : Session ℕ ℕ, s.issued = [[7], [8, 9]] ∧ s.sendsOutstanding ≤ 1 ∧
      s.handed.flatten ++ s.sendQueue = s.sent := by
  have hrun := reaches_of_follows (C := fun _ e => e.accepted) (s := {}) twoBatches
    (by decide)
  have h := sends_in_order hrun
  exact ⟨_, rfl, h.1, h.2.1⟩

/-! ## Progress -/

/-- The thread is about to issue a `WSASend`, or to see that there is nothing to send. -/
def Pc.Issues : Pc → Prop
  | .registerSend | .drain | .wsaSend | .onSend => True
  | _ => False

/-- The thread has found the session connected. -/
def Pc.UnderWay : Pc → Prop
  | .drain | .wsaSend | .releaseSend | .onSend => True
  | _ => False

/-- `RegisterSend` does not ask `IsConnected` before the session's connect has completed. -/
def SessionEvent.notEarly (s : Session T β) : SessionEvent T β → Bool
  | .registerSend _ => !s.connecting
  | _ => true

/-- Whatever is queued is in somebody's charge, unless the session is disconnected for good. -/
structure Charged (s : Session T β) : Prop where
  registered : s.sendQueue ≠ [] → s.sendRegistered = true
  held : s.sendRegistered = true →
    Held s.pc Pc.Issues s.sendsOutstanding ∨ s.connected = false ∧ s.connecting = false
  connecting : s.connecting = true → Free s.pc Pc.UnderWay s.sendsOutstanding
  noRelease : ∀ t, s.pc t ≠ .releaseSend

omit [DecidableEq T] in
/-- A thread that has found the session connected shows that the connect has completed. -/
theorem Charged.connecting_eq_false (h : Charged s) {t : T} {j : Pc} (ht : s.pc t = j)
    (hj : j.UnderWay) : s.connecting = false := by
  by_contra htrue
  apply (h.connecting (eq_true_of_ne_false htrue)).nobody t
  rwa [ht]

/-- A thread outside the send path goes to a point outside it. -/
theorem Charged.outside (h : Charged s) {t : T} {j k : Pc} (ht : s.pc t = j) (hj : ¬ j.Issues)
    (hk : ¬ k.Sends) (hpc : s'.pc = Function.update s.pc t k)
    (hqueue : s'.sendQueue = s.sendQueue) (hreg : s'.sendRegistered = s.sendRegistered)
    (hout : s'.sendsOutstanding = s.sendsOutstanding) (hconnecting : s'.connecting = s.connecting)
    (hconnected : s.connected = false → s'.connected = false) : Charged s' where
  registered := by rw [hqueue, hreg]; exact h.registered
  held := by
    rw [hreg, hpc, hout, hconnecting]
    intro htrue
    rcases h.held htrue with hheld | ⟨hdis, hconn⟩
    · exact .inl (hheld.move ht fun hj' => absurd hj' hj)
    · exact .inr ⟨hconnected hdis, hconn⟩
  connecting := by
    rw [hconnecting, hpc, hout]
    intro htrue
    refine (h.connecting htrue).move ?_
    cases k <;> first | exact id | exact absurd trivial hk
  noRelease := by
    rw [hpc]
    refine ne_update h.noRelease ?_ t
    rintro rfl
    exact hk trivial

/-- A thread of the send path, or one that enters it, goes to a point where it is in charge. -/
theorem Charged.inside (h : Charged s) {t : T} {k : Pc} (hk : k.Issues)
    (hpc : s'.pc = Function.update s.pc t k) (hreg : s'.sendQueue ≠ [] → s'.sendRegistered = true)
    (hfree : s'.connecting = true → Free s'.pc Pc.UnderWay s'.sendsOutstanding) : Charged s' where
  registered := hreg
  held _ := by
    rw [hpc]
    exact .inl (.of_self hk)
  connecting := hfree
  noRelease := by
    rw [hpc]
    refine ne_update h.noRelease ?_ t
    rintro rfl
    exact hk

theorem charged_step (hstep : SessionStep s e s') (haccepted : e.accepted)
    (hearly : e.notEarly s) (h : Charged s) : Charged s' := by
  have never : ∀ {p : Prop}, s.connecting = false → s.connecting = true → p := by
    intro p hfalse htrue
    cases hfalse.symm.trans htrue
  cases hstep with
  | @send t b ht =>
    have hfree : ∀ k : Pc, ¬ k.UnderWay → s.connecting = true →
        Free (Function.update s.pc t k) Pc.UnderWay s.sendsOutstanding :=
      fun k hk htrue => (h.connecting htrue).move hk
    cases hreg : s.sendRegistered with
    | false =>
      have hpc : (s.send t b).pc = Function.update s.pc t .registerSend := by
        simp [Session.send, hreg]
      refine h.inside (k := .registerSend) trivial hpc (fun _ => rfl) ?_
      rw [hpc]
      exact hfree _ id
    | true =>
      have hpc : (s.send t b).pc = Function.update s.pc t .idle := by simp [Session.send, hreg]
      refine ⟨fun _ => rfl, fun _ => ?_, ?_, ?_⟩
      · rw [hpc]
        exact (h.held hreg).imp (fun hheld => hheld.move ht False.elim) id
      · rw [hpc]
        exact hfree _ id
      · rw [hpc]
        exact ne_update h.noRelease (by simp) t
  | @registerSend t ht =>
    have hconn : s.connecting = false := by simpa [SessionEvent.notEarly] using hearly
    cases hc : s.connected with
    | true =>
      have hpc : (s.registerSend t).pc = Function.update s.pc t .drain := by
        simp [Session.registerSend, Session.goto, hc]
      exact h.inside (k := .drain) trivial hpc h.registered (never hconn)
    | false =>
      refine ⟨h.registered, fun _ => .inr ⟨hc, hconn⟩, never hconn, ?_⟩
      refine ne_update h.noRelease ?_ t
      rw [if_neg (by simp [hc])]
      simp
  | @drain t ht =>
    have hconn := h.connecting_eq_false ht trivial
    exact h.inside (k := .wsaSend) trivial rfl (fun hne => absurd rfl hne) (never hconn)
  | @wsaSend t result ht =>
    obtain rfl : result = .accepted := of_decide_eq_true haccepted
    have hconn := h.connecting_eq_false ht trivial
    exact ⟨h.registered, fun _ => .inl (.inl (Nat.succ_pos _)), never hconn,
      ne_update h.noRelease (by simp) t⟩
  | @releaseSend t ht => exact absurd ht (h.noRelease t)
  | @processSend t n ht hout =>
    have hconn : s.connecting = false := by
      by_contra htrue
      exact hout.ne' (h.connecting (eq_true_of_ne_false htrue)).eq_zero
    rcases eq_or_ne n 0 with rfl | hn
    · refine ⟨h.registered, fun _ => .inr ⟨?_, hconn⟩, never hconn,
        ne_update h.noRelease (by simp) t⟩
      simp [Session.processSend]
    · have hpc : (s.processSend t n).pc = Function.update s.pc t .onSend := by
        simp [Session.processSend, hn]
      exact h.inside (k := .onSend) trivial hpc h.registered (never hconn)
  | @onSend t ht =>
    have hconn := h.connecting_eq_false ht trivial
    cases hq : s.sendQueue with
    | nil =>
      refine ⟨fun hne => absurd hq hne, fun htrue => ?_, never hconn, ?_⟩
      · simp [Session.onSend, hq] at htrue
      · simpa [Session.onSend, hq] using ne_update h.noRelease (by simp) t
    | cons b q =>
      have hpc : (s.onSend t).pc = Function.update s.pc t .registerSend := by
        simp [Session.onSend, hq]
      refine h.inside (k := .registerSend) trivial hpc (fun _ => ?_) (never hconn)
      simp [Session.onSend, hq]
  | disconnect ht =>
    exact ⟨h.registered, fun htrue => (h.held htrue).imp id fun hdis => ⟨rfl, hdis.2⟩,
      h.connecting, h.noRelease⟩
  | @processConnect t ht hconn =>
    refine ⟨h.registered, fun htrue => ?_, fun htrue => Bool.noConfusion htrue,
      ne_update h.noRelease (by simp) t⟩
    rcases h.held htrue with hheld | ⟨-, hfalse⟩
    · exact .inl (hheld.move ht False.elim)
    · exact never hfalse hconn
  | onConnected ht => exact h.outside (k := .registerRecv) ht id id rfl rfl rfl rfl rfl id
  | @registerRecv t ht =>
    refine h.outside (k := if s.connected then .wsaRecv else .idle) ht id ?_ rfl rfl rfl rfl rfl id
    split <;> exact id
  | @wsaRecv t result ht =>
    cases result with
    | accepted => exact h.outside (k := .idle) ht id id rfl rfl rfl rfl rfl id
    | failed errorCode =>
      refine h.outside (k := .releaseRecv) ht id id rfl rfl rfl rfl rfl fun hfalse => ?_
      simp [Session.wsaRecv, Session.goto, Session.handleError, hfalse]
  | releaseRecv ht => exact h.outside (k := .idle) ht id id rfl rfl rfl rfl rfl id
  | @processRecv t n ht hout =>
    refine h.outside (k := if n = 0 then .idle else .onRecv) ht id ?_ rfl rfl rfl rfl rfl ?_
    · split <;> exact id
    · intro hfalse
      simp [Session.processRecv, hfalse]
  | @onRecv t overflow ht =>
    refine h.outside (k := if overflow then .idle else .registerRecv) ht id ?_ rfl rfl rfl rfl rfl ?_
    · split <;> exact id
    · intro hfalse
      simp [Session.onRecv, hfalse]

/-- **Progress of sends**: with every `WSASend` accepted, and as long as no `RegisterSend` asks
`IsConnected` before the connect has completed, a connected session with a nonempty queue has a
`WSASend` under way or a thread about to issue one. -/
theorem sends_go_on
    (h : Reaches SessionStep (fun s e => e.accepted && e.notEarly s) ({} : Session T β) s)
    (hconnected : s.connected = true) (hqueue : s.sendQueue ≠ []) :
    0 < s.sendsOutstanding ∨ ∃ t, (s.pc t).Issues := by
  have hinv : Charged s := by
    refine h.invariant ?_ ⟨fun hne => absurd rfl hne, fun htrue => Bool.noConfusion htrue,
      fun _ => ⟨rfl, fun _ => id⟩, by simp⟩
    intro s e s' hcharged he hstep
    obtain ⟨haccepted, hearly⟩ := Bool.and_eq_true_iff.1 he
    exact charged_step hstep haccepted hearly hcharged
  rcases hinv.held (hinv.registered hqueue) with hheld | ⟨hdis, -⟩
  · exact hheld
  · cases hconnected.symm.trans hdis

theorem sends_go_on_connected :
    ∃ s : Session ℕ ℕ, s.connected = true ∧ s.sendQueue ≠ [] ∧
      (0 < s.sendsOutstanding ∨ ∃ t, (s.pc t).Issues) := by
  have hrun := reaches_of_follows (C := fun s e => e.accepted && e.notEarly s) (s := {})
    [.send 1 7, .processConnect 0, .registerSend 1, .send 2 8] (by decide)
  exact ⟨_, rfl, by decide, sends_go_on hrun rfl (by decide)⟩

/-! ## A session that is stuck -/

/-- `_sendRegistered` is set and nobody has the right to send. -/
structure Stuck (s : Session T β) : Prop where
  registered : s.sendRegistered = true
  free : Free s.pc Pc.Sends s.sendsOutstanding

/-- A `RegisterSend` that finds the session not connected leaves it stuck. -/
theorem stuck_of_early_registerSend (h : SendToken s) {t : T} (ht : s.pc t = .registerSend)
    (hconnected : s.connected = false) : Stuck (s.registerSend t) where
  registered := by
    by_contra hfalse
    apply (h.free (eq_false_of_ne_true hfalse)).nobody t
    rw [ht]
    trivial
  free := by
    have hfree := h.token.release (k := .idle) ht trivial id
    simpa [Session.registerSend, Session.goto, hconnected] using hfree

/-- A thread goes to a point outside the send path. -/
theorem Stuck.outside (h : Stuck s) {t : T} {k : Pc} (hk : ¬ k.Sends)
    (hpc : s'.pc = Function.update s.pc t k) (hreg : s'.sendRegistered = s.sendRegistered)
    (hout : s'.sendsOutstanding = s.sendsOutstanding) : Stuck s' where
  registered := hreg.trans h.registered
  free := by
    rw [hpc, hout]
    exact h.free.move hk

theorem stuck_step (hstep : SessionStep s e s') (h : Stuck s) :
    Stuck s' ∧ s'.issued = s.issued := by
  have nobody : ∀ {p : Prop} {t : T} {j : Pc}, s.pc t = j → j.Sends → p := by
    intro p t j ht hj
    apply absurd _ (h.free.nobody t)
    rwa [ht]
  cases hstep with
  | @send t b ht =>
    refine ⟨⟨rfl, ?_⟩, rfl⟩
    simpa [Session.send, h.registered] using h.free.move (t := t) (k := .idle) id
  | registerSend ht => exact nobody ht trivial
  | drain ht => exact nobody ht trivial
  | wsaSend ht => exact nobody ht trivial
  | releaseSend ht => exact nobody ht trivial
  | processSend ht hout => exact absurd h.free.eq_zero hout.ne'
  | onSend ht => exact nobody ht trivial
  | disconnect ht => exact ⟨⟨h.registered, h.free⟩, rfl⟩
  | processConnect ht hconn => exact ⟨h.outside (k := .onConnected) id rfl rfl rfl, rfl⟩
  | onConnected ht => exact ⟨h.outside (k := .registerRecv) id rfl rfl rfl, rfl⟩
  | @registerRecv t ht =>
    refine ⟨h.outside (k := if s.connected then .wsaRecv else .idle) ?_ rfl rfl rfl, rfl⟩
    split <;> exact id
  | @wsaRecv t result ht =>
    cases result with
    | accepted => exact ⟨h.outside (k := .idle) id rfl rfl rfl, rfl⟩
    | failed errorCode => exact ⟨h.outside (k := .releaseRecv) id rfl rfl rfl, rfl⟩
  | releaseRecv ht => exact ⟨h.outside (k := .idle) id rfl rfl rfl, rfl⟩
  | @processRecv t n ht hout =>
    refine ⟨h.outside (k := if n = 0 then .idle else .onRecv) ?_ rfl rfl rfl, rfl⟩
    split <;> exact id
  | @onRecv t overflow ht =>
    refine ⟨h.outside (k := if overflow then .idle else .registerRecv) ?_ rfl rfl rfl, rfl⟩
    split <;> exact id

/-- **A stuck session stays stuck**: whatever its threads do, it never issues a `WSASend` again. -/
theorem stuck_forever (h : Stuck s) (hrun : Reaches SessionStep (fun _ _ => True) s s') :
    Stuck s' ∧ s'.issued = s.issued := by
  refine hrun.invariant (I := fun s' => Stuck s' ∧ s'.issued = s.issued) ?_ ⟨h, rfl⟩
  intro s₁ e s₂ ⟨hstuck, hissued⟩ _ hstep
  obtain ⟨hstuck', hissued'⟩ := stuck_step hstep hstuck
  exact ⟨hstuck', hissued'.trans hissued⟩

/-- A `Send` before the connect has completed: its `RegisterSend` returns, and the connected session
has a buffer that nobody will send. -/
theorem not_sends_go_on :
    ¬ ∀ s : Session ℕ ℕ, Reaches SessionStep (fun _ e => e.accepted) {} s →
      s.connected = true → s.sendQueue ≠ [] → 0 < s.sendsOutstanding ∨ ∃ t, (s.pc t).Issues := by
  intro hall
  have hrun := reaches_of_follows (C := fun _ e => e.accepted) (s := ({} : Session ℕ ℕ))
    [.send 1 7, .registerSend 1, .processConnect 0] (by decide)
  have hsend : SendToken (({} : Session ℕ ℕ).send 1 7) := sendToken_step (.send rfl) sendToken_init
  have hstuck := (stuck_step (.processConnect (t := 0) rfl rfl)
    (stuck_of_early_registerSend (t := 1) hsend rfl rfl)).1
  rcases hall _ hrun rfl (by decide) with hout | ⟨t, ht⟩
  · exact hout.ne' hstuck.free.eq_zero
  · apply hstuck.free.nobody t
    have hsends : ∀ {k : Pc}, k.Issues → k.Sends := fun {k} => by
      cases k <;> simp [Pc.Issues, Pc.Sends]
    exact hsends ht

end Zelda.ServerCore
