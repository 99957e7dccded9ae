import Zelda.ServerCore.References

/-!
# The invariant of the references

`Sound` says of every session how its events, their owners, the sets it is in and the functions on
the stack hang together. This module shows that the functions of a session keep it. `Disconnect` is
always called where something other than the sets keeps the session: a function that `main` is in,
or a `RegisterSend` that still holds its event (`Frame.RestsOn`).
-/

namespace Zelda.ServerCore.Lifetime

open Zelda.Server (SocketResult)

/-! ## What holds between two steps -/

/-- What is known of one session. `A`: `main` refers to it. `B`: it will register its receive. `D`,
`S`, `R`: its `Disconnect`, `RegisterSend` or `RegisterRecv` is on the stack. -/
structure Kept (g : GameSession) (A B D S R : Prop) : Prop where
  recvOwner : g.recvEvent.owner = true ↔ g.recvEvent.underWay = true ∨ R
  sendOwner : g.sendEvent.owner = true ↔ g.sendEvent.underWay = true ∨ S
  disconnectOwner : g.disconnectEvent.owner = g.disconnectEvent.underWay
  inService : g.inService = true ↔ g.connected = true ∨ D
  inManager : g.inManager = g.connected
  sendRegistered : g.sendEvent.owner = true → g.sendRegistered = true
  sending : S → g.sendEvent.underWay = false
  receiving : R → g.recvEvent.underWay = false ∧ A
  receives : B → g.recvEvent.owner = false ∧ A
  leaving : D → g.connected = false
  disconnecting : g.inService = true → g.disconnectEvent.underWay = false
  grounded : D ∨ S ∨ R → g.recvEvent.underWay = true ∨ A ∨ g.recvLost = true

/-- A connected session has a receive under way, or will have, or has lost it. -/
def Listens (g : GameSession) (B : Prop) : Prop :=
  g.connected = true → g.recvEvent.underWay = true ∨ B ∨ g.recvLost = true

/-- Why a function on the stack still finds its session when it goes on. -/
def Frame.RestsOn (base : Base) (stack : List Frame) : Frame → Prop
  | .disconnect i => base.session? = some i ∨ .registerSend i ∈ stack
  | .registerSend i => .disconnect i ∉ stack
  | .registerRecv _ => True

/-- No accept event but the one that is being processed has this session. -/
def Host.Entered (s : Host) (i : ℕ) : Prop :=
  i < s.created ∧ ∀ e : ℕ, s.acceptEvents[e]? = some (some i) → s.base.event? = some e

/-- The other accept events have new sessions. -/
structure Slots (s : Host) : Prop where
  lt : ∀ e i : ℕ, s.acceptEvents[e]? = some (some i) → i < s.created
  inj : ∀ e e' i : ℕ, s.acceptEvents[e]? = some (some i) →
    s.acceptEvents[e']? = some (some i) → e = e'
  new : ∀ e i : ℕ, s.acceptEvents[e]? = some (some i) → s.base.event? ≠ some e → s.sessions i = {}
  unborn : ∀ i, s.created ≤ i → s.sessions i = {}
  entered : ∀ i, s.base.session? = some i → s.Entered i
  current : ∀ e i, s.base.event? = some e → s.base.session? = some i →
    s.acceptEvents[e]? = some (some i)

/-- Nobody refers to the session any more but its `RegisterSend`. -/
structure Host.Last (s : Host) (i : ℕ) : Prop where
  connected : (s.sessions i).connected = false
  hasPlayer : (s.sessions i).hasPlayer = false
  recvEvent : (s.sessions i).recvEvent.underWay = false
  disconnectEvent : (s.sessions i).disconnectEvent.underWay = false
  base : s.base.session? ≠ some i
  held : s.held ≠ some i

/-- The invariant. The session `but`, if any, is just about to listen again. -/
structure Sound (s : Host) (but : Option ℕ) : Prop where
  kept : ∀ i, Kept (s.sessions i) (s.base.session? = some i) (s.base.Receives i)
    (.disconnect i ∈ s.stack) (.registerSend i ∈ s.stack) (.registerRecv i ∈ s.stack)
  listens : ∀ i, but ≠ some i → Listens (s.sessions i) (s.base.Receives i)
  nodup : s.stack.Nodup
  rests : ∀ f rest, f :: rest <:+ s.stack → f.RestsOn s.base rest
  slots : Slots s
  stack_eq_nil : s.base = .loop → s.stack = []
  held_eq_none : s.base.borrows = false → s.held = none

section Invariant

variable {s s' : Host} {i j : ℕ} {but : Option ℕ} {f : GameSession → GameSession}

namespace Host

@[simp] theorem sessions_modify_self : (s.modify i f).sessions i = f (s.sessions i) :=
  Function.update_self ..

theorem sessions_modify_ne (h : j ≠ i) : (s.modify i f).sessions j = s.sessions j :=
  Function.update_of_ne h ..

theorem modify_modify {f' : GameSession → GameSession} :
    (s.modify i f).modify i f' = s.modify i fun g => f' (f g) := by
  simp [modify]

@[simp] theorem sessions_push {k : Frame} : (s.push k).sessions = s.sessions := rfl

@[simp] theorem sessions_enter {base : Base} : (s.enter base).sessions = s.sessions := rfl

@[simp] theorem stack_modify : (s.modify i f).stack = s.stack := rfl

@[simp] theorem base_modify : (s.modify i f).base = s.base := rfl

theorem alive_iff : s.alive i = true ↔ (s.sessions i).referenced = true ∨
    some i ∈ s.acceptEvents ∨ s.base.session? = some i ∨ s.held = some i := by
  simp [alive, or_assoc]

theorem alive_of_base (h : s.base.session? = some i) : s.alive i = true :=
  alive_iff.2 (.inr (.inr (.inl h)))

@[simp] theorem sessions_hold {held : Option ℕ} : (s.hold held).sessions = s.sessions := rfl

theorem touch_eq (h : s.alive i = true) : s.touch i = .ok () := by
  simp [touch, h, pure, Except.pure]

theorem touch_eq_error (h : s.alive i = false) : s.touch i = .error .destroyed := by
  simp [touch, h, throw, throwThe, MonadExceptOf.throw]

end Host

namespace Slots

theorem of_ne (h : Slots s) (hne : s.sessions i ≠ {}) : s.Entered i := by
  refine ⟨?_, fun e he => ?_⟩
  · by_contra hlt
    exact hne (h.unborn i (Nat.le_of_not_lt hlt))
  · by_contra he'
    exact hne (h.new e i he he')

/-- Only a session that has entered changes. -/
theorem change (h : Slots s) (hi : s.Entered i)
    (hsess : ∀ j, j ≠ i → s'.sessions j = s.sessions j)
    (hevents : s'.acceptEvents = s.acceptEvents) (hcreated : s'.created = s.created)
    (hbase : s'.base.event? = s.base.event?)
    (hsession : ∀ j, s'.base.session? = some j → s.base.session? = some j ∨ j = i)
    (hcurrent : s'.base.event? ≠ none → s'.base.session? = s.base.session?) : Slots s' := by
  have hentered : ∀ j, s.Entered j → s'.Entered j := by
    intro j hj
    rw [Host.Entered, hevents, hcreated, hbase]
    exact hj
  constructor
  · rw [hevents, hcreated]
    exact h.lt
  · rw [hevents]
    exact h.inj
  · rw [hevents, hbase]
    intro e j he hne
    have hji : j ≠ i := by
      rintro rfl
      exact hne (hi.2 e he)
    rw [hsess j hji]
    exact h.new e j he hne
  · rw [hcreated]
    intro j hj
    rw [hsess j (Nat.ne_of_gt (Nat.lt_of_lt_of_le hi.1 hj))]
    exact h.unborn j hj
  · intro j hj
    rcases hsession j hj with hj | rfl
    · exact hentered j (h.entered j hj)
    · exact hentered j hi
  · rw [hevents]
    intro e j he hj
    rw [hcurrent (by simp [he])] at hj
    exact h.current e j (hbase ▸ he) hj

end Slots

namespace Sound

/-- A step that is about one session. -/
theorem change (h : Sound s (some i)) (but : Option ℕ)
    (hsess : ∀ j, j ≠ i → s'.sessions j = s.sessions j)
    (hstack : ∀ f : Frame, f.session ≠ i → (f ∈ s'.stack ↔ f ∈ s.stack))
    (hbase : ∀ j, j ≠ i → (s'.base.session? = some j ↔ s.base.session? = some j))
    (hreceives : ∀ j, j ≠ i → (s'.base.Receives j ↔ s.base.Receives j))
    (hkept : Kept (s'.sessions i) (s'.base.session? = some i) (s'.base.Receives i)
      (.disconnect i ∈ s'.stack) (.registerSend i ∈ s'.stack) (.registerRecv i ∈ s'.stack))
    (hlistens : but ≠ some i → Listens (s'.sessions i) (s'.base.Receives i))
    (hnodup : s'.stack.Nodup)
    (hrests : ∀ f rest, f :: rest <:+ s'.stack → f.RestsOn s'.base rest)
    (hslots : Slots s') (hnil : s'.base = .loop → s'.stack = [])
    (hheld : s'.base.borrows = false → s'.held = none) : Sound s' but where
  kept j := by
    rcases eq_or_ne j i with rfl | hne
    · exact hkept
    · rw [hsess j hne, hstack (.disconnect j) hne, hstack (.registerSend j) hne,
        hstack (.registerRecv j) hne]
      have hk := h.kept j
      rw [← propext (hbase j hne), ← propext (hreceives j hne)] at hk
      exact hk
  listens j hj := by
    rcases eq_or_ne j i with rfl | hne
    · exact hlistens hj
    · rw [hsess j hne, propext (hreceives j hne)]
      exact h.listens j fun heq => hne (Option.some.inj heq).symm
  nodup := hnodup
  rests := hrests
  slots := hslots
  stack_eq_nil := hnil
  held_eq_none := hheld

theorem weaken (h : Sound s none) (i : ℕ) : Sound s (some i) :=
  ⟨h.kept, fun j _ => h.listens j (by simp), h.nodup, h.rests, h.slots, h.stack_eq_nil,
    h.held_eq_none⟩

/-- A session that is not connected need not listen. -/
theorem of_not_connected (h : Sound s (some i)) (hc : (s.sessions i).connected = false) :
    Sound s none := by
  refine ⟨h.kept, fun j _ => ?_, h.nodup, h.rests, h.slots, h.stack_eq_nil, h.held_eq_none⟩
  rcases eq_or_ne j i with rfl | hne
  · intro htrue
    rw [hc] at htrue
    cases htrue
  · exact h.listens j fun heq => hne (Option.some.inj heq).symm

/-- A session changes, and nothing else does. -/
theorem modify (h : Sound s (some i)) (but : Option ℕ) (hi : s.Entered i)
    (hkept : Kept (f (s.sessions i)) (s.base.session? = some i) (s.base.Receives i)
      (.disconnect i ∈ s.stack) (.registerSend i ∈ s.stack) (.registerRecv i ∈ s.stack))
    (hlistens : but ≠ some i → Listens (f (s.sessions i)) (s.base.Receives i)) :
    Sound (s.modify i f) but := by
  refine h.change but (fun j hj => Host.sessions_modify_ne hj) (fun _ _ => Iff.rfl)
    (fun _ _ => Iff.rfl) (fun _ _ => Iff.rfl) ?_ ?_ h.nodup h.rests ?_ h.stack_eq_nil
    h.held_eq_none
  · rw [Host.sessions_modify_self]
    exact hkept
  · rw [Host.sessions_modify_self]
    exact hlistens
  · exact h.slots.change hi (fun j hj => Host.sessions_modify_ne hj) rfl rfl rfl
      (fun _ hj => .inl hj) fun _ => rfl

/-- A session changes, and one of its functions is called. -/
theorem modify_push (h : Sound s (some i)) (but : Option ℕ) {k : Frame} (hk : k.session = i)
    (hi : s.Entered i)
    (hkept : Kept (f (s.sessions i)) (s.base.session? = some i) (s.base.Receives i)
      (.disconnect i ∈ k :: s.stack) (.registerSend i ∈ k :: s.stack)
      (.registerRecv i ∈ k :: s.stack))
    (hlistens : but ≠ some i → Listens (f (s.sessions i)) (s.base.Receives i))
    (hnew : k ∉ s.stack) (hrests : k.RestsOn s.base s.stack) (hloop : s.base ≠ .loop) :
    Sound ((s.modify i f).push k) but := by
  refine h.change but (fun j hj => Host.sessions_modify_ne hj) (fun k' hk' => ?_)
    (fun _ _ => Iff.rfl) (fun _ _ => Iff.rfl) ?_ ?_ (List.nodup_cons.2 ⟨hnew, h.nodup⟩) ?_ ?_
    (fun heq => absurd heq hloop) h.held_eq_none
  · change k' ∈ k :: s.stack ↔ k' ∈ s.stack
    rw [List.mem_cons, or_iff_right]
    rintro rfl
    exact hk' hk
  · change Kept ((s.modify i f).sessions i) _ _ _ _ _
    rw [Host.sessions_modify_self]
    exact hkept
  · change but ≠ some i → Listens ((s.modify i f).sessions i) _
    rw [Host.sessions_modify_self]
    exact hlistens
  · intro k' rest hrest
    rcases List.suffix_cons_iff.1 hrest with heq | hrest
    · obtain ⟨rfl, rfl⟩ := List.cons.inj heq
      exact hrests
    · exact h.rests k' rest hrest
  · exact h.slots.change hi (fun j hj => Host.sessions_modify_ne hj) rfl rfl rfl
      (fun _ hj => .inl hj) fun _ => rfl

/-- A session with a reference, or with a function on the stack, has entered. -/
theorem entered (h : Sound s but) (hi : (s.sessions i).connected = true ∨
    (s.sessions i).hasPlayer = true ∨ (s.sessions i).recvEvent.owner = true ∨
    (s.sessions i).sendEvent.owner = true ∨ (s.sessions i).disconnectEvent.owner = true) :
    s.Entered i := by
  refine h.slots.of_ne fun heq => ?_
  rw [heq] at hi
  simp at hi

/-- `Disconnect`, called by a function that keeps the session. -/
theorem disconnect (h : Sound s (some i)) (halive : s.alive i = true) (hloop : s.base ≠ .loop)
    (hground : (s.sessions i).recvEvent.underWay = true ∨ s.base.session? = some i ∨
      (s.sessions i).recvLost = true)
    (hrests : s.base.session? = some i ∨ .registerSend i ∈ s.stack) :
    ∃ s', s.disconnect i = .ok s' ∧ Sound s' none := by
  rw [Host.disconnect, Host.touch_eq halive]
  by_cases hc : (s.sessions i).connected = true
  · have hk := h.kept i
    have hnew : .disconnect i ∉ s.stack := fun hmem => by
      rw [hk.leaving hmem] at hc
      cases hc
    refine ⟨_, by simp [hc, bind, Except.bind, pure, Except.pure]; rfl, ?_⟩
    refine h.modify_push none rfl (h.entered (.inl hc)) ?_ ?_ hnew hrests hloop
    · simp only [List.mem_cons, true_or, reduceCtorEq, false_or]
      have hservice : (s.sessions i).inService = true := hk.inService.2 (.inl hc)
      exact ⟨hk.recvOwner, hk.sendOwner, hk.disconnectOwner, by simp [hservice], rfl,
        hk.sendRegistered, hk.sending, hk.receiving, hk.receives, fun _ => rfl, hk.disconnecting,
        fun _ => hground⟩
    · intro _ hfalse
      cases hfalse
  · have hfalse : (s.sessions i).connected = false := eq_false_of_ne_true hc
    exact ⟨s, by simp [hfalse, bind, Except.bind, pure, Except.pure], h.of_not_connected hfalse⟩

theorem handleError (h : Sound s (some i)) (halive : s.alive i = true) (hloop : s.base ≠ .loop)
    (hground : (s.sessions i).recvEvent.underWay = true ∨ s.base.session? = some i ∨
      (s.sessions i).recvLost = true)
    (hrests : s.base.session? = some i ∨ .registerSend i ∈ s.stack) (result : SocketResult)
    (hlistens : result.resets = false → Sound s none) :
    ∃ s', s.handleError i result = .ok s' ∧ Sound s' none := by
  rw [Host.handleError]
  split
  · exact h.disconnect halive hloop hground hrests
  · exact ⟨s, rfl, hlistens (eq_false_of_ne_true ‹_›)⟩

/-- `RegisterRecv`, called by the function that `main` is in. -/
theorem registerRecv (h : Sound s (some i)) (hbase : s.base.session? = some i)
    (hreceives : ¬ s.base.Receives i) (hnil : s.stack = [])
    (howner : (s.sessions i).recvEvent.owner = false) (result : SocketResult) :
    ∃ s', s.registerRecv i result = .ok s' ∧ Sound s' none := by
  have halive : s.alive i = true := Host.alive_of_base hbase
  have hloop : s.base ≠ .loop := by
    intro heq
    rw [heq] at hbase
    cases hbase
  by_cases hc : (s.sessions i).connected = false
  · refine ⟨s, ?_, h.of_not_connected hc⟩
    simp [Host.registerRecv, Host.touch_eq halive, hc, bind, Except.bind, pure, Except.pure]
  have hk := h.kept i
  simp only [hnil, List.not_mem_nil] at hk
  have hunder : (s.sessions i).recvEvent.underWay = false := by
    refine eq_false_of_ne_true fun htrue => ?_
    rw [hk.recvOwner.2 (.inl htrue)] at howner
    cases howner
  have hi : s.Entered i := h.entered (.inl (by simpa using hc))
  cases result with
  | accepted =>
    refine ⟨s.modify i fun g => { g with recvEvent := ⟨true, true⟩ }, ?_, h.modify none hi ?_ ?_⟩
    · simp [Host.registerRecv, Host.touch_eq halive, hc, hunder, bind, Except.bind, pure,
        Except.pure]
    · simp only [hnil, List.not_mem_nil]
      exact ⟨by simp, hk.sendOwner, hk.disconnectOwner, hk.inService, hk.inManager,
        hk.sendRegistered, hk.sending, False.elim, fun hb => absurd hb hreceives, hk.leaving,
        hk.disconnecting, by simp⟩
    · exact fun _ _ => .inl rfl
  | failed errorCode =>
    set lost := !(SocketResult.failed errorCode).resets with hlost
    set s₁ := (s.modify i fun g =>
      { g with
        recvEvent := { g.recvEvent with owner := true }
        recvLost := g.recvLost || lost }).push (.registerRecv i)
    have hpush : ∀ but, (but ≠ some i → lost = true) → Sound s₁ but := by
      intro but hbut
      refine h.modify_push but rfl hi ?_ (fun hne _ => ?_) ?_ trivial hloop
      · simp only [hnil, List.mem_cons, reduceCtorEq, List.not_mem_nil, or_false]
        exact ⟨by simp, hk.sendOwner, hk.disconnectOwner, hk.inService, hk.inManager,
          hk.sendRegistered, hk.sending, fun _ => ⟨hunder, hbase⟩, fun hb => absurd hb hreceives,
          hk.leaving, hk.disconnecting, fun _ => .inr (.inl hbase)⟩
      · simp [hbut hne]
      · simp [hnil]
    obtain ⟨s', hok, hs'⟩ := (hpush (some i) fun hne => absurd rfl hne).handleError
      (Host.alive_of_base hbase) hloop (.inr (.inl hbase)) (.inl hbase)
      (.failed errorCode) fun hresets => hpush none fun _ => by
        rw [hlost, hresets]
        rfl
    refine ⟨s', ?_, hs'⟩
    simpa [Host.registerRecv, Host.touch_eq halive, hc, hunder, bind, Except.bind] using hok

/-- `RegisterSend`, called for a session that has just been registered for sending. -/
theorem registerSend (h : Sound s none) (halive : s.alive i = true) (hloop : s.base ≠ .loop)
    (howner : (s.sessions i).sendEvent.owner = false)
    (hregistered : (s.sessions i).sendRegistered = true) (result : SocketResult) :
    ∃ s', s.registerSend i result = .ok s' ∧ Sound s' none := by
  by_cases hc : (s.sessions i).connected = false
  · refine ⟨s, ?_, h⟩
    simp [Host.registerSend, Host.touch_eq halive, hc, bind, Except.bind, pure, Except.pure]
  have hconnected : (s.sessions i).connected = true := by simpa using hc
  have hk := h.kept i
  have hnone : ¬ ((s.sessions i).sendEvent.underWay = true ∨ .registerSend i ∈ s.stack) := by
    rw [← hk.sendOwner, howner]
    exact Bool.false_ne_true
  have hunder : (s.sessions i).sendEvent.underWay = false :=
    eq_false_of_ne_true fun htrue => hnone (.inl htrue)
  have hleaving : .disconnect i ∉ s.stack := by
    intro hmem
    rw [hk.leaving hmem] at hconnected
    cases hconnected
  have hground : (s.sessions i).recvEvent.underWay = true ∨ s.base.session? = some i ∨
      (s.sessions i).recvLost = true :=
    (h.listens i (by simp) hconnected).imp_right (.imp_left fun hb => (hk.receives hb).2)
  have hi : s.Entered i := h.entered (.inl hconnected)
  cases result with
  | accepted =>
    refine ⟨s.modify i fun g => { g with sendEvent := ⟨true, true⟩, sendQueue := 0 }, ?_,
      (h.weaken i).modify none hi ?_ ?_⟩
    · simp [Host.registerSend, Host.touch_eq halive, hc, hunder, bind, Except.bind, pure,
        Except.pure]
    · exact ⟨hk.recvOwner, by simp, hk.disconnectOwner, hk.inService, hk.inManager,
        fun _ => hregistered, fun hmem => absurd (.inr hmem) hnone, hk.receiving, hk.receives,
        hk.leaving, hk.disconnecting, hk.grounded⟩
    · exact fun _ => h.listens i (by simp)
  | failed errorCode =>
    set s₁ := (s.modify i fun g =>
      { g with sendEvent := { g.sendEvent with owner := true }, sendQueue := 0 }).push
        (.registerSend i) with hs₁
    have hpush : Sound s₁ none := by
      refine (h.weaken i).modify_push none rfl hi ?_ (fun _ => h.listens i (by simp))
        (fun hmem => hnone (.inr hmem)) hleaving hloop
      simp only [List.mem_cons, reduceCtorEq, false_or, true_or]
      exact ⟨hk.recvOwner, by simp, hk.disconnectOwner, hk.inService, hk.inManager,
        fun _ => hregistered, fun _ => hunder, hk.receiving, hk.receives, hk.leaving,
        hk.disconnecting, fun _ => hground⟩
    have hself : s₁.sessions i =
        { s.sessions i with
          sendEvent := { (s.sessions i).sendEvent with owner := true }, sendQueue := 0 } := by
      rw [hs₁, Host.sessions_push, Host.sessions_modify_self]
    obtain ⟨s', hok, hs'⟩ := (hpush.weaken i).handleError
      (Host.alive_iff.2 (.inl (by rw [hself]; simp [GameSession.referenced]))) hloop
      (by rw [hself]; exact hground) (.inr List.mem_cons_self) (.failed errorCode) fun _ => hpush
    refine ⟨s', ?_, hs'⟩
    simpa [Host.registerSend, Host.touch_eq halive, hc, hunder, bind, Except.bind] using hok

/-- `Send`, called by content code. -/
theorem send (h : Sound s none) (halive : s.alive i = true) (hloop : s.base ≠ .loop)
    (hi : s.Entered i) (result : SocketResult) :
    ∃ s', s.send i result = .ok s' ∧ Sound s' none := by
  have hk := h.kept i
  set s₁ := s.modify i fun g => { g with sendQueue := g.sendQueue + 1, sendRegistered := true }
  have hs₁ : Sound s₁ none :=
    (h.weaken i).modify none hi ⟨hk.recvOwner, hk.sendOwner, hk.disconnectOwner, hk.inService,
      hk.inManager, fun _ => rfl, hk.sending, hk.receiving, hk.receives, hk.leaving,
      hk.disconnecting, hk.grounded⟩ fun _ => h.listens i (by simp)
  have hself : s₁.sessions i =
      { s.sessions i with sendQueue := (s.sessions i).sendQueue + 1, sendRegistered := true } :=
    Host.sessions_modify_self
  by_cases hregistered : (s.sessions i).sendRegistered = true
  · refine ⟨s₁, ?_, hs₁⟩
    simp [Host.send, Host.touch_eq halive, hregistered, bind, Except.bind, pure, Except.pure,
      s₁]
  · have hfalse := eq_false_of_ne_true hregistered
    have halive₁ : s₁.alive i = true := by
      rw [Host.alive_iff] at halive ⊢
      rw [hself]
      exact halive
    obtain ⟨s', hok, hs'⟩ := hs₁.registerSend (i := i) halive₁ hloop
      (eq_false_of_ne_true fun howner => by
        rw [hself] at howner
        exact hregistered (hk.sendRegistered howner))
      (by rw [hself]) result
    refine ⟨s', ?_, hs'⟩
    simpa [Host.send, Host.touch_eq halive, hfalse, bind, Except.bind] using hok

end Sound

end Invariant

end Zelda.ServerCore.Lifetime
