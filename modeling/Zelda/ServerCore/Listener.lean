import Zelda.ServerCore.Dispatch

/-!
# The session limit

`Listener::StartAccept` has one `AcceptEx` under way for each session that the service may hold, and
`ProcessAccept` registers the next one on every path: also after a session has been added. The
service counts its sessions, but never compares them with `_maxSessionCount`.

* `sessionLimit_of_run`: as long as every accept that adds a session finds less than
  `_maxSessionCount` of them, the count is the number of sessions and stays within the limit; the
  first accept that does not breaks it.
* `not_sessionLimit_secondAccept`: two clients connect to a service for one.

What `OnConnected` does and the `RegisterAccept` at the end of `ProcessAccept` are events of their
own, so that the work of other threads may come between.
-/

namespace Zelda.ServerCore

open Server (SocketResult)

/-! ## Accept events -/

/-- A service with its listener. -/
structure ServerService extends Connections ℕ where
  maxSessionCount : Int32
  /-- `Listener::_acceptEvents` by the session of each, none while there is none under way. -/
  acceptEvents : List (Option ℕ) := []
  /-- How many sessions have been made. -/
  created : ℕ := 0

inductive ListenerFault
  /-- `CreateSession` returned null, and `RegisterAccept` uses its socket. -/
  | nullSession
  deriving DecidableEq

/-- How a call of `RegisterAccept` goes: how many `AcceptEx` fail at once, and whether the last
session can be registered with the completion port. -/
structure Attempts where
  failures : ℕ := 0
  registers : Bool := true

/-- The first half of `Session::ProcessConnect`, up to the call of `OnConnected`. -/
def Connections.connect (s : Connections ℕ) (i : ℕ) : Connections ℕ :=
  Connections.record
    { s with
      toService := s.toService.addSession i
      connected := Function.update s.connected i true }
    (.onConnected i)

/-- The second half are calls of the content code and a `RegisterRecv`. -/
example (s : Connections ℕ) (i : ℕ) (c : Course ℕ) :
    s.processConnect i c = ((s.connect i).calls c.calls).register i c.wsaRecv := rfl

namespace ServerService

variable (s : ServerService)

/-- `CreateSession`, with the session put into the accept event. -/
def createSession (event : ℕ) : ServerService :=
  { s with acceptEvents := s.acceptEvents.set event (some s.created), created := s.created + 1 }

/-- `Listener::RegisterAccept`, which tries again when `AcceptEx` fails. -/
def registerAccept (event : ℕ) (registers : Bool) :
    ℕ → ServerService → Except ListenerFault ServerService
  | 0, s => if registers then return s.createSession event else throw .nullSession
  | failures + 1, s => registerAccept event registers failures (s.createSession event)

/-- The body of the loop of `Listener::StartAccept`. -/
def pushAccept (event : ℕ) (a : Attempts) : Except ListenerFault ServerService :=
  registerAccept event a.registers a.failures { s with acceptEvents := s.acceptEvents ++ [none] }

/-- `Listener::StartAccept` -/
def startAccept (env : Environment) (attempts : ℕ → Attempts) :
    Except ListenerFault (Bool × ServerService) := do
  if env.createSocket && env.register && env.setReuseAddress && env.setLinger && env.bindAddress &&
      env.listen then
    let acceptCount := s.maxSessionCount.toInt.toNat
    let s ← (List.range acceptCount).foldlM (fun s i => s.pushAccept i (attempts i)) s
    return (true, s)
  else return (false, s)

/-- `Listener::ProcessAccept` before its `RegisterAccept`. The three paths differ in whether the
session is added; the accept event is registered again on each. -/
def processAccept (W : Winsock ℕ) (event session : ℕ) (ok : Bool) : ServerService :=
  let s := { s with
    toConnections := s.record (.completed session ok)
    acceptEvents := s.acceptEvents.set event none }
  if W.setUpdateAcceptSocket session ok = false then s
  else if W.getpeername session ok = false then s
  else { s with toConnections := s.connect session }

end ServerService

/-! ## Events -/

/-- What happens in a server. -/
inductive ServiceEvent
  /-- An `AcceptEx` completes. -/
  | accept (event : ℕ) (ok : Bool)
  /-- The end of `ProcessAccept`. -/
  | registerAccept (event : ℕ) (a : Attempts)
  /-- Another operation completes. -/
  | completion (e : Completion ℕ) (c : Course ℕ)
  /-- Content code, as in `OnConnected` and `GameRoom::Update`. -/
  | call (c : Call ℕ)
  /-- The end of `ProcessConnect`. -/
  | registerRecv (i : ℕ) (result : SocketResult)

variable {W : Winsock ℕ}

/-- A server takes a step. A session of a server has no `ConnectEx`. -/
inductive ServiceStep (W : Winsock ℕ) : ServerService → ServiceEvent → ServerService → Prop
  | accept {s : ServerService} {event session : ℕ} {ok : Bool}
      (h : s.acceptEvents[event]? = some (some session)) :
      ServiceStep W s (.accept event ok) (s.processAccept W event session ok)
  | registerAccept {s s' : ServerService} {event : ℕ} {a : Attempts}
      (hnone : s.acceptEvents[event]? = some none)
      (h : ServerService.registerAccept event a.registers a.failures s = .ok s') :
      ServiceStep W s (.registerAccept event a) s'
  | completion {s : ServerService} {e : Completion ℕ} {c : Course ℕ}
      (h : e.event = .recv ∨ e.event = .send ∨ e.event = .disconnect) :
      ServiceStep W s (.completion e c) { s with toConnections := s.objectDispatch W e c }
  | call {s : ServerService} {c : Call ℕ} :
      ServiceStep W s (.call c) { s with toConnections := s.toConnections.call c }
  | registerRecv {s : ServerService} {i : ℕ} {result : SocketResult} :
      ServiceStep W s (.registerRecv i result)
        { s with toConnections := s.register i result }

/-- The event is an accept that adds its session: Winsock takes the socket for connected. -/
def ServerService.Accepts (W : Winsock ℕ) (s : ServerService) (e : ServiceEvent) : Prop :=
  ∃ event session ok, e = .accept event ok ∧ s.acceptEvents[event]? = some (some session) ∧
    W.setUpdateAcceptSocket session ok = true ∧ W.getpeername session ok = true

/-- The condition on an event: a session is added while there are less than the limit. -/
def HasRoom (W : Winsock ℕ) (s : ServerService) (e : ServiceEvent) : Prop :=
  s.Accepts W e → s.sessionCount < s.maxSessionCount.toInt

/-! ## The count -/

/-- The connected sessions are the registered ones, and `_sessionCount` is their number. -/
structure Counted (s : Connections ℕ) : Prop where
  connected : ∀ i, s.connected i = true ↔ i ∈ s.sessions
  count : s.sessionCount = s.sessions.card

/-- The sessions of the accept events are new ones. -/
structure Fresh (s : ServerService) : Prop where
  sessions : ∀ i ∈ s.sessions, i < s.created
  created : ∀ (e i : ℕ), s.acceptEvents[e]? = some (some i) → i < s.created
  notMem : ∀ (e i : ℕ), s.acceptEvents[e]? = some (some i) → i ∉ s.sessions
  distinct : ∀ (e e' i : ℕ), s.acceptEvents[e]? = some (some i) →
    s.acceptEvents[e']? = some (some i) → e = e'

/-- What a step other than an accept does to the sessions: some leave. -/
structure Thins (s s' : Connections ℕ) : Prop where
  counted : Counted s → Counted s'
  subset : s'.sessions ⊆ s.sessions

namespace Thins

variable {s s' s'' : Connections ℕ}

theorem refl (s : Connections ℕ) : Thins s s := ⟨fun h => h, Finset.Subset.refl _⟩

theorem trans (h : Thins s s') (h' : Thins s' s'') : Thins s s'' :=
  ⟨fun hs => h'.counted (h.counted hs), h'.subset.trans h.subset⟩

theorem disconnect (s : Connections ℕ) (i : ℕ) : Thins s (s.disconnect i) := by
  rw [Connections.disconnect]
  split
  · rename_i hi
    refine ⟨fun h => ⟨fun j => ?_, ?_⟩, Finset.erase_subset i s.sessions⟩
    · change Function.update s.connected i false j = true ↔ j ∈ s.sessions.erase i
      rw [Finset.mem_erase, ← h.connected]
      rcases eq_or_ne j i with rfl | hne
      · simp
      · simp [hne]
    · have hmem : i ∈ s.sessions := (h.connected i).1 hi
      have hcard := Finset.card_erase_add_one hmem
      change s.sessionCount - 1 = (s.sessions.erase i).card
      rw [h.count]
      omega
  · exact refl s

theorem register (s : Connections ℕ) (i : ℕ) (result : SocketResult) :
    Thins s (s.register i result) := by
  rw [Connections.register, Connections.handleError]
  split
  · split
    · exact disconnect s i
    · exact refl s
  · exact refl s

theorem call (s : Connections ℕ) (c : Call ℕ) : Thins s (s.call c) := by
  match c with
  | .send i (some wsaSend) => exact register s i wsaSend
  | .send _ none => exact refl s
  | .disconnect i => exact disconnect s i

theorem calls (s : Connections ℕ) (cs : List (Call ℕ)) : Thins s (s.calls cs) := by
  induction cs generalizing s with
  | nil => exact refl s
  | cons c cs ih => exact (call s c).trans (ih (s.call c))

theorem objectDispatch {e : Completion ℕ} (c : Course ℕ)
    (he : e.event = .recv ∨ e.event = .send ∨ e.event = .disconnect) :
    Thins s (s.objectDispatch W e c) := by
  rw [Connections.objectDispatch]
  rcases he with he | he | he
  · simp only [he, Connections.processRecv]
    split
    · exact disconnect s _
    · split
      · exact disconnect s _
      · split
        · exact (calls s _).trans (disconnect _ _)
        · exact (calls s _).trans (register _ _ _)
  · simp only [he, Connections.processSend]
    split
    · exact disconnect s _
    · split
      · exact (calls s _).trans (register _ _ _)
      · exact calls s _
  · simp only [he]
    exact refl s

end Thins

theorem Counted.connect {s : Connections ℕ} (h : Counted s) {i : ℕ} (hi : i ∉ s.sessions) :
    Counted (s.connect i) := by
  constructor
  · intro j
    change Function.update s.connected i true j = true ↔ j ∈ insert i s.sessions
    rw [Finset.mem_insert, ← h.connected]
    rcases eq_or_ne j i with rfl | hne
    · simp
    · simp [hne]
  · change s.sessionCount + 1 = (insert i s.sessions).card
    rw [Finset.card_insert_of_notMem hi, h.count]
    omega

namespace Fresh

variable {s : ServerService}

theorem of_slots (h : Fresh s) {slots : List (Option ℕ)}
    (hslots : ∀ {e i : ℕ}, slots[e]? = some (some i) → s.acceptEvents[e]? = some (some i)) :
    Fresh { s with acceptEvents := slots } :=
  ⟨h.sessions, fun e i hei => h.created e i (hslots hei),
    fun e i hei => h.notMem e i (hslots hei),
    fun e e' i he he' => h.distinct e e' i (hslots he) (hslots he')⟩

/-- An accept event whose session has been accepted. -/
theorem set (h : Fresh s) (event : ℕ) :
    Fresh { s with acceptEvents := s.acceptEvents.set event none } := by
  refine h.of_slots fun {e i} hei => ?_
  rw [List.getElem?_set] at hei
  split at hei
  · split at hei <;> simp at hei
  · exact hei

/-- An accept event that has no session yet is added. -/
theorem push (h : Fresh s) : Fresh { s with acceptEvents := s.acceptEvents ++ [none] } := by
  refine h.of_slots fun {e i} hei => ?_
  rw [List.getElem?_append] at hei
  split at hei
  · exact hei
  · rw [List.getElem?_singleton] at hei
    split at hei <;> simp at hei

theorem createSession (h : Fresh s) (event : ℕ) : Fresh (s.createSession event) := by
  have hslot : ∀ {e i : ℕ}, (s.createSession event).acceptEvents[e]? = some (some i) →
      e = event ∧ i = s.created ∨ s.acceptEvents[e]? = some (some i) := by
    intro e i hei
    rw [ServerService.createSession, List.getElem?_set] at hei
    split at hei
    · rename_i heq
      split at hei
      · exact .inl ⟨heq.symm, by simpa using hei.symm⟩
      · cases hei
    · exact .inr hei
  refine ⟨fun i hi => ?_, fun e i hei => ?_, fun e i hei hi => ?_, fun e e' i he he' => ?_⟩
  · exact Nat.lt_succ_of_lt (h.sessions i hi)
  · rcases hslot hei with ⟨-, rfl⟩ | hei
    · exact Nat.lt_succ_self _
    · exact Nat.lt_succ_of_lt (h.created e i hei)
  · rcases hslot hei with ⟨-, rfl⟩ | hei
    · exact absurd (h.sessions _ hi) (lt_irrefl _)
    · exact h.notMem e i hei hi
  · rcases hslot he with ⟨he, hi⟩ | he <;> rcases hslot he' with ⟨he', hi'⟩ | he'
    · exact he.trans he'.symm
    · exact absurd (h.created e' i he') (by omega)
    · exact absurd (h.created e i he) (by omega)
    · exact h.distinct e e' i he he'

end Fresh

/-- A service whose sessions are counted. -/
structure Registered (s : ServerService) : Prop where
  counted : Counted s.toConnections
  fresh : Fresh s

namespace Registered

variable {s s' : ServerService}

theorem thins (h : Registered s) {c : Connections ℕ} (hc : Thins s.toConnections c) :
    Registered { s with toConnections := c } :=
  ⟨hc.counted h.counted, fun i hi => h.fresh.sessions i (hc.subset hi), h.fresh.created,
    fun e i hei hi => h.fresh.notMem e i hei (hc.subset hi), h.fresh.distinct⟩

/-- What `RegisterAccept` keeps, however often it tries. -/
theorem registerAccept (h : Registered s) {event failures : ℕ} {registers : Bool}
    (hs : ServerService.registerAccept event registers failures s = .ok s') :
    Registered s' ∧ s'.toConnections = s.toConnections ∧
      s'.maxSessionCount = s.maxSessionCount := by
  induction failures generalizing s with
  | zero =>
    rw [ServerService.registerAccept] at hs
    split at hs
    · obtain rfl := Except.ok.inj hs
      exact ⟨⟨h.counted, h.fresh.createSession event⟩, rfl, rfl⟩
    · cases hs
  | succ failures ih =>
    exact ih (s := s.createSession event) ⟨h.counted, h.fresh.createSession event⟩ hs

theorem processAccept (h : Registered s) {event session : ℕ} {ok : Bool}
    (hslot : s.acceptEvents[event]? = some (some session)) :
    Registered (s.processAccept W event session ok) := by
  have hset := h.fresh.set event
  have hrecord : Counted (s.record (.completed session ok)) := ⟨h.counted.connected, h.counted.count⟩
  have hnone : ∀ {e i : ℕ}, (s.acceptEvents.set event none)[e]? = some (some i) → e ≠ event := by
    rintro e i hei rfl
    rw [List.getElem?_set_self'] at hei
    simp [hslot] at hei
  rw [ServerService.processAccept]
  split
  · exact ⟨hrecord, hset.sessions, hset.created, hset.notMem, hset.distinct⟩
  · split
    · exact ⟨hrecord, hset.sessions, hset.created, hset.notMem, hset.distinct⟩
    · refine ⟨hrecord.connect (h.fresh.notMem event session hslot), fun i hi => ?_,
        hset.created, fun e i hei hi => ?_, hset.distinct⟩
      · rcases Finset.mem_insert.1 hi with rfl | hi
        · exact h.fresh.created event i hslot
        · exact h.fresh.sessions i hi
      · rcases Finset.mem_insert.1 hi with rfl | hi
        · have hei' : s.acceptEvents[e]? = some (some i) := by
            rwa [List.getElem?_set_ne (hnone hei).symm] at hei
          exact hnone hei (h.fresh.distinct e event i hei' hslot)
        · exact hset.notMem e i hei hi

/-- The accept events that the service starts with. -/
theorem pushAccepts (h : Registered s) (attempts : ℕ → Attempts) {events : List ℕ}
    (hs : events.foldlM (fun s i => s.pushAccept i (attempts i)) s = .ok s') :
    Registered s' ∧ s'.toConnections = s.toConnections ∧
      s'.maxSessionCount = s.maxSessionCount := by
  induction events generalizing s with
  | nil =>
    obtain rfl := Except.ok.inj hs
    exact ⟨h, rfl, rfl⟩
  | cons i events ih =>
    rw [List.foldlM_cons] at hs
    cases hpush : s.pushAccept i (attempts i) with
    | error fault => simp [hpush, bind, Except.bind] at hs
    | ok s₁ =>
      simp only [hpush, bind, Except.bind] at hs
      have hnone : Registered { s with acceptEvents := s.acceptEvents ++ [none] } :=
        ⟨h.counted, h.fresh.push⟩
      obtain ⟨h₁, hconn, hmax⟩ := hnone.registerAccept hpush
      obtain ⟨h', hconn', hmax'⟩ := ih h₁ hs
      exact ⟨h', hconn'.trans hconn, hmax'.trans hmax⟩

theorem startAccept {m : Int32} {env : Environment} {attempts : ℕ → Attempts} {started : Bool}
    (hs : ServerService.startAccept { maxSessionCount := m } env attempts = .ok (started, s)) :
    Registered s ∧ s.sessionCount = 0 ∧ s.maxSessionCount = m := by
  have hempty : Registered { maxSessionCount := m } :=
    ⟨⟨by simp, rfl⟩, by simp, by simp, by simp, by simp⟩
  rw [ServerService.startAccept] at hs
  split at hs
  · cases hloop : (List.range m.toInt.toNat).foldlM
        (fun s i => ServerService.pushAccept s i (attempts i)) { maxSessionCount := m } with
    | error fault =>
      simp only [hloop, bind, Except.bind] at hs
      cases hs
    | ok s₁ =>
      simp only [hloop, bind, Except.bind] at hs
      obtain ⟨-, rfl⟩ := Prod.mk.inj (Except.ok.inj hs)
      obtain ⟨h', hconn, hmax⟩ := hempty.pushAccepts attempts hloop
      exact ⟨h', congrArg (fun c => c.sessionCount) hconn, hmax⟩
  · obtain ⟨-, rfl⟩ := Prod.mk.inj (Except.ok.inj hs)
    exact ⟨hempty, rfl, rfl⟩

theorem step (h : Registered s) {e : ServiceEvent} (hs : ServiceStep W s e s') :
    Registered s' ∧ s'.maxSessionCount = s.maxSessionCount := by
  cases hs with
  | accept hslot =>
    refine ⟨h.processAccept hslot, ?_⟩
    rw [ServerService.processAccept]
    split
    · rfl
    · split <;> rfl
  | registerAccept _ hs =>
    obtain ⟨h', -, hmax⟩ := h.registerAccept hs
    exact ⟨h', hmax⟩
  | completion he => exact ⟨h.thins (.objectDispatch _ he), rfl⟩
  | call => exact ⟨h.thins (.call _ _), rfl⟩
  | registerRecv => exact ⟨h.thins (.register _ _ _), rfl⟩

end Registered

/-! ## The limit -/

/-- Only an accept that adds its session raises the count, and by one. -/
theorem ServiceStep.sessionCount {s s' : ServerService} {e : ServiceEvent}
    (hs : ServiceStep W s e s') (h : Registered s) :
    s.Accepts W e ∧ s'.sessionCount = s.sessionCount + 1 ∨
      ¬ s.Accepts W e ∧ s'.sessionCount ≤ s.sessionCount := by
  have hthins : ∀ {c : Connections ℕ}, Thins s.toConnections c →
      c.sessionCount ≤ s.sessionCount := by
    intro c hc
    rw [(hc.counted h.counted).count, h.counted.count]
    exact_mod_cast Finset.card_le_card hc.subset
  have hother : (∀ event ok, e ≠ .accept event ok) → ¬ s.Accepts W e := by
    rintro hne ⟨event, -, ok, he, -⟩
    exact hne event ok he
  cases hs with
  | @accept event session ok hslot =>
    have haccepts : s.Accepts W (.accept event ok) ↔
        W.setUpdateAcceptSocket session ok = true ∧ W.getpeername session ok = true := by
      constructor
      · rintro ⟨event', session', ok', he, hslot', hset, hname⟩
        obtain ⟨rfl, rfl⟩ := ServiceEvent.accept.inj he
        obtain rfl : session = session' := by simpa [hslot] using hslot'
        exact ⟨hset, hname⟩
      · rintro ⟨hset, hname⟩
        exact ⟨event, session, ok, rfl, hslot, hset, hname⟩
    rw [haccepts, ServerService.processAccept]
    cases hset : W.setUpdateAcceptSocket session ok with
    | false => exact .inr ⟨by simp, le_refl _⟩
    | true =>
      cases hname : W.getpeername session ok with
      | false => exact .inr ⟨by simp, le_refl _⟩
      | true => exact .inl ⟨by simp, rfl⟩
  | registerAccept _ hs =>
    obtain ⟨-, hconn, -⟩ := h.registerAccept hs
    exact .inr ⟨hother (by simp), (congrArg (fun c => c.sessionCount) hconn).le⟩
  | completion he => exact .inr ⟨hother (by simp), hthins (.objectDispatch _ he)⟩
  | call => exact .inr ⟨hother (by simp), hthins (.call _ _)⟩
  | registerRecv => exact .inr ⟨hother (by simp), hthins (.register _ _ _)⟩

/-- The sessions are counted, and there are not more of them than the limit says. -/
structure WithinLimit (s : ServerService) : Prop where
  count : s.sessionCount = s.sessions.card
  le : s.sessionCount ≤ s.maxSessionCount.toInt

/-- **The session limit** holds in every run in which each accept that adds a session finds less of
them than the limit; the next accept breaks it if it does not. -/
theorem sessionLimit_of_run {m : Int32} (hm : 0 ≤ m.toInt) {env : Environment}
    {attempts : ℕ → Attempts} {started : Bool} {s₀ s : ServerService}
    (hstart : ServerService.startAccept { maxSessionCount := m } env attempts = .ok (started, s₀))
    (h : Reaches (ServiceStep W) (HasRoom W) s₀ s) :
    WithinLimit s ∧ ∀ e s', ServiceStep W s e s' → (WithinLimit s' ↔ HasRoom W s e) := by
  have hstep : ∀ s e s', Registered s ∧ s.sessionCount ≤ s.maxSessionCount.toInt →
      ServiceStep W s e s' → Registered s' ∧
        (s'.sessionCount ≤ s'.maxSessionCount.toInt ↔ HasRoom W s e) := by
    rintro s e s' ⟨hs, hle⟩ hstep
    obtain ⟨hs', hmax⟩ := hs.step hstep
    refine ⟨hs', ?_⟩
    rw [hmax, HasRoom]
    rcases hstep.sessionCount hs with ⟨haccepts, hcount⟩ | ⟨hnot, hcount⟩
    · rw [hcount]
      exact ⟨fun hle' _ => by omega, fun hroom => by have := hroom haccepts; omega⟩
    · exact ⟨fun _ haccepts => absurd haccepts hnot, fun _ => hcount.trans hle⟩
  obtain ⟨hreg₀, hcount₀, hmax₀⟩ := Registered.startAccept hstart
  have hle₀ : s₀.sessionCount ≤ s₀.maxSessionCount.toInt := by
    rw [hcount₀, hmax₀]
    exact hm
  have hinv : Registered s ∧ s.sessionCount ≤ s.maxSessionCount.toInt :=
    h.invariant (I := fun s => Registered s ∧ s.sessionCount ≤ s.maxSessionCount.toInt)
      (fun s e s' hs hroom hs' => (hstep s e s' hs hs').imp_right fun hiff => hiff.2 hroom)
      ⟨hreg₀, hle₀⟩
  refine ⟨⟨hinv.1.counted.count, hinv.2⟩, fun e s' hs' => ?_⟩
  obtain ⟨hreg, hiff⟩ := hstep s e s' hinv hs'
  exact ⟨fun hwithin => hiff.1 hwithin.le, fun hroom => ⟨hreg.counted.count, hiff.2 hroom⟩⟩

/-- A service for one session, with the accept of one client. -/
def oneSession : ServerService := { maxSessionCount := 1, acceptEvents := [some 0], created := 1 }

theorem startAccept_oneSession : ServerService.startAccept { maxSessionCount := 1 }
    ⟨true, true, true, true, true, true, true, true, true, true⟩ (fun _ => {}) =
    .ok (true, oneSession) := rfl

/-- The client leaves, and the next one may come. -/
theorem sessionLimit_oneSession : ∃ s : ServerService, s.sessionCount = 0 ∧ s.created = 2 ∧
    WithinLimit s ∧ HasRoom winsock s (.accept 0 true) := by
  have hroom : HasRoom winsock oneSession (.accept 0 true) := fun _ => by decide
  have haccept : ServiceStep winsock oneSession (.accept 0 true)
      (oneSession.processAccept winsock 0 0 true) := .accept rfl
  have hrun : Reaches (ServiceStep winsock) (HasRoom winsock) oneSession _ :=
    .tail (.tail (.single hroom haccept) (e := .call (.disconnect 0))
      (fun haccepts => by obtain ⟨_, _, _, he, -⟩ := haccepts; cases he) .call)
      (e := .registerAccept 0 {})
      (fun haccepts => by obtain ⟨_, _, _, he, -⟩ := haccepts; cases he) (.registerAccept rfl rfl)
  obtain ⟨hwithin, -⟩ := sessionLimit_of_run (by decide) startAccept_oneSession hrun
  refine ⟨_, rfl, rfl, hwithin, fun _ => by decide⟩

/-- A second client connects while the first is connected. -/
theorem not_sessionLimit_secondAccept : ¬ ∀ (m : Int32) (env : Environment)
    (attempts : ℕ → Attempts) (started : Bool) (s₀ s : ServerService),
    ServerService.startAccept { maxSessionCount := m } env attempts = .ok (started, s₀) →
    Reaches (ServiceStep winsock) (fun _ _ => True) s₀ s → s.sessionCount ≤ m.toInt := by
  intro hall
  have haccept : ServiceStep winsock oneSession (.accept 0 true)
      (oneSession.processAccept winsock 0 0 true) := .accept rfl
  have hagain : Reaches (ServiceStep winsock) (fun _ _ => True) oneSession _ :=
    .tail (.single trivial haccept) (e := .registerAccept 0 {}) trivial (.registerAccept rfl rfl)
  have hrun : Reaches (ServiceStep winsock) (fun _ _ => True) oneSession _ :=
    hagain.tail (e := .accept 0 true) trivial (@ServiceStep.accept winsock _ 0 1 true rfl)
  have hle := hall 1 _ _ _ _ _ startAccept_oneSession hrun
  exact absurd hle (by decide)

end Zelda.ServerCore
