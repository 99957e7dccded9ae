import Zelda.ServerCore.Held

/-!
# How long a session lives

* `fault_iff_of_run`: the only thing that can go wrong, whatever Winsock answers, is that a
  `RegisterSend` whose `WSASend` has failed comes back from `HandleError` and gives up the last
  reference to its own session, whose fields it goes on to write.
* `no_fault_of_run`: that does not happen as long as every `WSARecv` that fails at once fails with a
  code that disconnects. `fault_iff_of_run_halfDead` has two runs in which one fails with another
  code: what content code refers to at that moment decides.
* `alive_iff_of_run`: between two turns of the main loop a session exists exactly if it is
  connected, an operation of it is under way, it waits for a client, or a player has it.
-/

namespace Zelda.ServerCore.Lifetime

open Zelda.Server (SocketResult)

section Invariant

variable {s s' : Host} {i : ℕ} {but : Option ℕ} {f : GameSession → GameSession}

namespace Sound

/-! ## Functions that go on -/

/-- A function on the stack is over, and its session changes. -/
theorem pop (h : Sound s none) {k : Frame} {rest : List Frame} (hk : k.session = i)
    (hstack : s.stack = k :: rest) (hi : s.Entered i)
    (hkept : Kept (f (s.sessions i)) (s.base.session? = some i) (s.base.Receives i)
      (.disconnect i ∈ rest) (.registerSend i ∈ rest) (.registerRecv i ∈ rest))
    (hlistens : Listens (f (s.sessions i)) (s.base.Receives i)) :
    Sound ({ s with stack := rest }.modify i f) none := by
  have hsuffix : rest <:+ s.stack := hstack ▸ List.suffix_cons k rest
  refine (h.weaken i).change none (fun j hj => Host.sessions_modify_ne hj) (fun k' hk' => ?_)
    (fun _ _ => Iff.rfl) (fun _ _ => Iff.rfl) ?_ ?_ (h.nodup.sublist hsuffix.sublist)
    (fun k' rest' hrest => h.rests k' rest' (hrest.trans hsuffix)) ?_ (fun hloop => ?_)
    h.held_eq_none
  · change k' ∈ rest ↔ k' ∈ s.stack
    rw [hstack, List.mem_cons, or_iff_right]
    rintro rfl
    exact hk' hk
  · rw [Host.sessions_modify_self]
    exact hkept
  · rw [Host.sessions_modify_self]
    exact fun _ => hlistens
  · exact h.slots.change hi (fun j hj => Host.sessions_modify_ne hj) rfl rfl rfl
      (fun _ hj => .inl hj) fun _ => rfl
  · rw [h.stack_eq_nil hloop] at hstack
    cases hstack

/-- What the stack says of the session of its first function. -/
theorem kept_cons (h : Sound s but) {k : Frame} {rest : List Frame} (hstack : s.stack = k :: rest) :
    k ∉ rest ∧ Kept (s.sessions i) (s.base.session? = some i) (s.base.Receives i)
      (.disconnect i = k ∨ .disconnect i ∈ rest) (.registerSend i = k ∨ .registerSend i ∈ rest)
      (.registerRecv i = k ∨ .registerRecv i ∈ rest) := by
  have hk := h.kept i
  rw [hstack] at hk
  simp only [List.mem_cons] at hk
  exact ⟨(List.nodup_cons.1 (hstack ▸ h.nodup)).1, hk⟩

theorem rests_top (h : Sound s but) {k : Frame} {rest : List Frame}
    (hstack : s.stack = k :: rest) : k.RestsOn s.base rest :=
  h.rests k rest (by rw [hstack])

/-- The rest of `Disconnect`. -/
theorem resume_disconnect (h : Sound s none) {rest : List Frame}
    (hstack : s.stack = .disconnect i :: rest) (a : Answers) :
    ∃ s', { s with stack := rest }.resume a (.disconnect i) = .ok s' ∧ Sound s' none := by
  obtain ⟨hnot, hk⟩ := h.kept_cons (i := i) hstack
  simp only [true_or, reduceCtorEq, false_or] at hk
  have hservice : (s.sessions i).inService = true := hk.inService.2 (.inr trivial)
  have hdisc := hk.disconnecting hservice
  have hc : (s.sessions i).connected = false := hk.leaving trivial
  have hrests : s.base.session? = some i ∨ .registerSend i ∈ rest := h.rests_top hstack
  have hstays : s.base.session? = some i ∨ (s.sessions i).sendEvent.owner = true :=
    hrests.imp_right fun hmem => hk.sendOwner.2 (.inr hmem)
  have hi : s.Entered i := by
    rcases hstays with hbase | howner
    · exact h.slots.entered i hbase
    · exact h.entered (.inr (.inr (.inr (.inl howner))))
  have halive : { s with stack := rest }.alive i = true := by
    rw [Host.alive_iff]
    exact .inl (by simp [GameSession.referenced, hservice])
  set s₁ := { s with stack := rest }.modify i fun g => { g with inService := false } with hs₁
  have halive₁ : s₁.alive i = true := by
    rw [Host.alive_iff, hs₁, Host.sessions_modify_self]
    rcases hstays with hbase | howner
    · exact .inr (.inr (.inl hbase))
    · exact .inl (by simp [GameSession.referenced, howner])
  have hrelease : { s with stack := rest }.releaseSession i = .ok s₁ := by
    simp [Host.releaseSession, hservice, pure, Except.pure, hs₁]
  have hunder : (s₁.sessions i).disconnectEvent.underWay = false := by
    rw [hs₁, Host.sessions_modify_self]
    exact hdisc
  have hkept : ∀ ok : Bool, Kept
      { s.sessions i with inService := false, disconnectEvent := ⟨ok, ok⟩ }
      (s.base.session? = some i) (s.base.Receives i) (.disconnect i ∈ rest)
      (.registerSend i ∈ rest) (.registerRecv i ∈ rest) := fun ok =>
    ⟨hk.recvOwner, hk.sendOwner, rfl, by simp [hc, hnot], hk.inManager, hk.sendRegistered,
      hk.sending, hk.receiving, hk.receives, fun hmem => absurd hmem hnot, by simp,
      fun _ => hk.grounded (.inl trivial)⟩
  have hpop : ∀ f : GameSession → GameSession, ∀ ok : Bool,
      f (s.sessions i) = { s.sessions i with inService := false, disconnectEvent := ⟨ok, ok⟩ } →
      Sound ({ s with stack := rest }.modify i f) none := by
    intro f ok heq
    refine h.pop (k := .disconnect i) rfl hstack hi (heq ▸ hkept ok) ?_
    rw [heq]
    exact h.listens i (by simp)
  have hdisconnect : ∃ s', s₁.registerDisconnect i a.disconnectEx = .ok s' ∧ Sound s' none := by
    simp only [Host.registerDisconnect, Host.touch_eq halive₁, hunder, bind, Except.bind,
      Bool.false_eq_true, if_false]
    cases a.disconnectEx with
    | true =>
      refine ⟨_, rfl, ?_⟩
      rw [hs₁, Host.modify_modify]
      exact hpop _ true rfl
    | false =>
      refine ⟨_, rfl, ?_⟩
      rw [hs₁, Host.modify_modify]
      refine hpop _ false ?_
      rw [show (s.sessions i).disconnectEvent = ⟨(s.sessions i).disconnectEvent.owner,
        (s.sessions i).disconnectEvent.underWay⟩ from rfl, hdisc]
  obtain ⟨s', hok, hs'⟩ := hdisconnect
  refine ⟨s', ?_, hs'⟩
  simp only [Host.resume, Host.touch_eq halive, hrelease, bind, Except.bind]
  exact hok

/-- The rest of `RegisterRecv`. -/
theorem resume_registerRecv (h : Sound s none) {rest : List Frame}
    (hstack : s.stack = .registerRecv i :: rest) (a : Answers) :
    ∃ s', { s with stack := rest }.resume a (.registerRecv i) = .ok s' ∧ Sound s' none := by
  obtain ⟨hnot, hk⟩ := h.kept_cons (i := i) hstack
  simp only [true_or, reduceCtorEq, false_or] at hk
  obtain ⟨hunder, hbase⟩ := hk.receiving trivial
  have halive : { s with stack := rest }.alive i = true := Host.alive_of_base hbase
  refine ⟨_, by simp only [Host.resume, Host.touch_eq halive, bind, Except.bind]; rfl, ?_⟩
  refine h.pop (k := .registerRecv i) rfl hstack (h.slots.entered i hbase) ?_
    (h.listens i (by simp))
  exact ⟨by simp [hunder, hnot], hk.sendOwner, hk.disconnectOwner, hk.inService, hk.inManager,
    hk.sendRegistered, hk.sending, fun hmem => absurd hmem hnot,
    fun hb => ⟨rfl, (hk.receives hb).2⟩, hk.leaving, hk.disconnecting, fun _ => .inr (.inl hbase)⟩

/-- What is left of a session whose `RegisterSend` gives up its reference. -/
theorem alive_released_iff (h : Sound s none) {rest : List Frame}
    (hstack : s.stack = .registerSend i :: rest) :
    ({ s with stack := rest }.modify i fun g =>
      { g with sendEvent := { g.sendEvent with owner := false } }).alive i = true ↔
      ¬ s.Last i := by
  obtain ⟨-, hk⟩ := h.kept_cons (i := i) hstack
  simp only [true_or, reduceCtorEq, false_or] at hk
  have hleft : .disconnect i ∉ rest := h.rests_top hstack
  rw [Host.alive_iff, Host.sessions_modify_self]
  constructor
  · rintro halive ⟨hconnected, hplayer, hrecv, hdisc, hbase, hheld⟩
    have hservice : (s.sessions i).inService = false := by
      refine eq_false_of_ne_true fun htrue => ?_
      rcases hk.inService.1 htrue with htrue | hmem
      · rw [hconnected] at htrue
        cases htrue
      · exact hleft hmem
    have hreceive : (s.sessions i).recvEvent.owner = false := by
      refine eq_false_of_ne_true fun htrue => ?_
      rcases hk.recvOwner.1 htrue with htrue | hmem
      · rw [hrecv] at htrue
        cases htrue
      · exact hbase (hk.receiving hmem).2
    rcases halive with hreferenced | hslot | hbase' | hheld'
    · simp [GameSession.referenced, hservice, hk.inManager, hconnected, hplayer, hreceive,
        hk.disconnectOwner, hdisc] at hreferenced
    · obtain ⟨e, he⟩ := List.mem_iff_getElem?.1 hslot
      have hi : s.Entered i := h.entered (.inr (.inr (.inr (.inl (hk.sendOwner.2 (.inr trivial))))))
      obtain ⟨j, hj⟩ : ∃ j, s.base.session? = some j := by
        have hevent := hi.2 e he
        cases hb : s.base with
        | onConnected event j | processAccept event j => exact ⟨j, rfl⟩
        | loop | update | onRecv j | dispatch j =>
          rw [hb] at hevent
          cases hevent
      have heq := h.slots.current e j (hi.2 e he) hj
      rw [show s.acceptEvents[e]? = some (some i) from he] at heq
      exact hbase (by rw [hj, Option.some.inj (Option.some.inj heq)])
    · exact hbase hbase'
    · exact hheld hheld'
  · intro hlast
    by_contra hdead
    have hdead := not_or.1 hdead
    have hreferenced := hdead.1
    simp only [GameSession.referenced, Bool.or_eq_true, not_or, Bool.not_eq_true] at hreferenced
    obtain ⟨⟨⟨⟨⟨-, hmanager⟩, hplayer⟩, hrecv⟩, -⟩, hdisc⟩ := hreferenced
    refine hlast ⟨by rw [← hk.inManager]; exact hmanager, hplayer, ?_, ?_,
      fun hbase => hdead.2 (.inr (.inl hbase)), fun hheld => hdead.2 (.inr (.inr hheld))⟩
    · refine eq_false_of_ne_true fun htrue => ?_
      rw [hk.recvOwner.2 (.inl htrue)] at hrecv
      cases hrecv
    · rw [← hk.disconnectOwner]
      exact hdisc

/-- The rest of `RegisterSend`. -/
theorem resume_registerSend (h : Sound s none) {rest : List Frame}
    (hstack : s.stack = .registerSend i :: rest) (a : Answers) :
    s.Last i ∧ { s with stack := rest }.resume a (.registerSend i) = .error .destroyed ∨
      ¬ s.Last i ∧
        ∃ s', { s with stack := rest }.resume a (.registerSend i) = .ok s' ∧ Sound s' none := by
  obtain ⟨hnot, hk⟩ := h.kept_cons (i := i) hstack
  simp only [true_or, reduceCtorEq, false_or] at hk
  have howner : (s.sessions i).sendEvent.owner = true := hk.sendOwner.2 (.inr trivial)
  have hunder := hk.sending trivial
  have halive : { s with stack := rest }.alive i = true :=
    Host.alive_iff.2 (.inl (by simp [GameSession.referenced, howner]))
  have hreleased := h.alive_released_iff hstack
  set s₁ := { s with stack := rest }.modify i fun g =>
    { g with sendEvent := { g.sendEvent with owner := false } } with hs₁
  by_cases hlast : s.Last i
  · have hdead : s₁.alive i = false :=
      eq_false_of_ne_true fun htrue => hreleased.1 htrue hlast
    refine .inl ⟨hlast, ?_⟩
    simp only [Host.resume, Host.touch_eq halive, bind, Except.bind]
    rw [← hs₁, Host.touch_eq_error hdead]
  · have halive₁ := hreleased.2 hlast
    refine .inr ⟨hlast, s₁.modify i fun g => { g with sendRegistered := false }, ?_, ?_⟩
    · simp only [Host.resume, Host.touch_eq halive, bind, Except.bind]
      rw [← hs₁, Host.touch_eq halive₁]
      rfl
    · rw [hs₁, Host.modify_modify]
      refine h.pop (k := .registerSend i) rfl hstack
        (h.entered (.inr (.inr (.inr (.inl howner))))) ?_ (h.listens i (by simp))
      exact ⟨hk.recvOwner, by simp [hunder, hnot], hk.disconnectOwner, hk.inService, hk.inManager,
        by simp, fun hmem => absurd hmem hnot, hk.receiving, hk.receives, hk.leaving,
        hk.disconnecting, fun _ => hk.grounded (.inr (.inl trivial))⟩

/-- `main` goes from one of its functions to another, with an empty stack. -/
theorem turn (h : Sound s none) (hnil : s.stack = []) (hsess : s'.sessions = s.sessions)
    (hnil' : s'.stack = []) (hreceives : ∀ j, ¬ s'.base.Receives j)
    (hbut : ∀ j, s.base.Receives j → but = some j) (hslots : Slots s')
    (hheld : s'.base.borrows = false → s'.held = none) : Sound s' but where
  kept j := by
    have hk := h.kept j
    simp only [hnil, List.not_mem_nil] at hk
    simp only [hsess, hnil', List.not_mem_nil]
    exact ⟨hk.recvOwner, hk.sendOwner, hk.disconnectOwner, hk.inService, hk.inManager,
      hk.sendRegistered, hk.sending, False.elim, fun hb => absurd hb (hreceives j), hk.leaving,
      hk.disconnecting, by simp⟩
  listens j hj hc := by
    rw [hsess] at hc ⊢
    rcases h.listens j (by simp) hc with hunder | hb | hlost
    · exact .inl hunder
    · exact absurd (hbut j hb) hj
    · exact .inr (.inr hlost)
  nodup := hnil' ▸ List.nodup_nil
  rests f rest hrest := by
    rw [hnil'] at hrest
    exact absurd (List.suffix_nil.1 hrest) (List.cons_ne_nil f rest)
  slots := hslots
  stack_eq_nil _ := hnil'
  held_eq_none := hheld

/-- A local variable of content code changes. -/
theorem hold (h : Sound s none) {held : Option ℕ} (hheld : s.base.borrows = false → held = none) :
    Sound (s.hold held) none :=
  ⟨h.kept, h.listens, h.nodup, h.rests, ⟨h.slots.lt, h.slots.inj, h.slots.new, h.slots.unborn,
    h.slots.entered, h.slots.current⟩, h.stack_eq_nil, hheld⟩

end Sound

theorem Slots.enter (h : Slots s) {base : Base} (hevent : base.event? = s.base.event?)
    (hsession : base.session? = s.base.session? ∨ base.session? = none) :
    Slots (s.enter base) where
  lt := h.lt
  inj := h.inj
  new e i he hne := h.new e i he fun heq => hne (hevent.trans heq)
  unborn := h.unborn
  entered i hi := by
    rcases hsession with hsame | hnone
    · obtain ⟨hlt, hslot⟩ := h.entered i (hsame.symm.trans hi)
      exact ⟨hlt, fun e he => hevent.trans (hslot e he)⟩
    · cases hnone.symm.trans hi
  current e i he hi := by
    rcases hsession with hsame | hnone
    · exact h.current e i (hevent.symm.trans he) (hsame.symm.trans hi)
    · cases hnone.symm.trans hi

/-- The accept event gets a new session. -/
theorem Slots.registerAccept (h : Slots s) (event failures : ℕ)
    (hevent : ∀ e, s.base.event? = some e → e = event) :
    Slots ((s.registerAccept event failures).enter .loop) := by
  have hslot : ∀ {e i : ℕ}, (s.acceptEvents.set event (some (s.created + failures)))[e]? =
      some (some i) → e = event ∧ i = s.created + failures ∨
        e ≠ event ∧ s.acceptEvents[e]? = some (some i) := by
    intro e i he
    rw [List.getElem?_set] at he
    split at he
    · rename_i heq
      split at he
      · exact .inl ⟨heq.symm, by simpa using he.symm⟩
      · cases he
    · rename_i hne
      exact .inr ⟨fun heq => hne heq.symm, he⟩
  refine ⟨fun e i he => ?_, fun e e' i he he' => ?_, fun e i he _ => ?_, fun i hi => ?_,
    by rintro i ⟨⟩, by rintro e i ⟨⟩⟩
  · change i < s.created + failures + 1
    rcases hslot he with ⟨-, rfl⟩ | ⟨-, he⟩
    · exact Nat.lt_succ_self _
    · have := h.lt e i he
      omega
  · rcases hslot he with ⟨he, hi⟩ | ⟨-, he⟩ <;> rcases hslot he' with ⟨he', hi'⟩ | ⟨-, he'⟩
    · exact he.trans he'.symm
    · exact absurd (h.lt e' i he') (by omega)
    · exact absurd (h.lt e i he) (by omega)
    · exact h.inj e e' i he he'
  · rcases hslot he with ⟨-, rfl⟩ | ⟨hne, he⟩
    · exact h.unborn _ (Nat.le_add_right _ _)
    · exact h.new e i he fun heq => hne (hevent e heq)
  · change s.created + failures + 1 ≤ i at hi
    exact h.unborn i (by omega)

/-- The session of an accept event is what `main` is busy with from now on. -/
theorem Slots.accept (h : Slots s) (hloop : s.base = .loop) {event : ℕ}
    (hslot : s.acceptEvents[event]? = some (some i))
    (hne : ∀ j, j ≠ i → s'.sessions j = s.sessions j) (hevents : s'.acceptEvents = s.acceptEvents)
    (hcreated : s'.created = s.created) (hevent : s'.base.event? = some event)
    (hsession : s'.base.session? = some i) : Slots s' where
  lt := by
    rw [hevents, hcreated]
    exact h.lt
  inj := by
    rw [hevents]
    exact h.inj
  new e j he hbusy := by
    rw [hevents] at he
    have hji : j ≠ i := by
      rintro rfl
      exact hbusy (by rw [hevent, h.inj e event j he hslot])
    rw [hne j hji]
    exact h.new e j he (by simp [hloop, Base.event?])
  unborn j hj := by
    rw [hcreated] at hj
    rw [hne j (Nat.ne_of_gt (Nat.lt_of_lt_of_le (h.lt event i hslot) hj))]
    exact h.unborn j hj
  entered j hj := by
    obtain rfl := Option.some.inj (hsession.symm.trans hj)
    rw [Host.Entered, hevents, hcreated, hevent]
    exact ⟨h.lt event i hslot, fun e he => by rw [h.inj e event i he hslot]⟩
  current e j he hj := by
    obtain rfl := Option.some.inj (hevent.symm.trans he)
    obtain rfl := Option.some.inj (hsession.symm.trans hj)
    rw [hevents]
    exact hslot

namespace Sound

/-- What is left of the function that `main` is in. -/
theorem finish (h : Sound s none) (hnil : s.stack = []) (a : Answers) :
    ∃ s', s.finish a s.base = .ok s' ∧ Sound s' none := by
  cases hb : s.base with
  | loop => exact ⟨s, rfl, h⟩
  | update =>
    have hfree : Sound (s.hold none) none := h.hold fun _ => rfl
    have hb' : (s.hold none).base = .update := hb
    refine ⟨_, rfl, hfree.turn hnil rfl hnil (fun _ => id) (fun j hj => ?_)
      (hfree.slots.enter (by rw [hb']; rfl) (.inr rfl)) fun _ => rfl⟩
    rw [hb'] at hj
    exact hj.elim
  | dispatch i =>
    refine ⟨_, rfl, h.turn hnil rfl hnil (fun _ => id) (fun j hj => ?_)
      (h.slots.enter (by rw [hb]; rfl) (.inr rfl)) fun _ => h.held_eq_none (by rw [hb]; rfl)⟩
    rw [hb] at hj
    exact hj.elim
  | processAccept event i =>
    refine ⟨_, rfl, h.turn hnil rfl hnil (fun _ => id) (fun j hj => ?_)
      (h.slots.registerAccept event _ fun e he => ?_) fun _ => h.held_eq_none (by rw [hb]; rfl)⟩
    · rw [hb] at hj
      exact hj.elim
    · rw [hb] at he
      exact (Option.some.inj he).symm
  | onConnected event i =>
    have howner := ((h.kept i).receives (by rw [hb]; rfl)).1
    have hs₁ : Sound (s.enter (.processAccept event i)) (some i) := by
      refine h.turn hnil rfl hnil (fun _ => id) (fun j hj => ?_)
        (h.slots.enter (by rw [hb]; rfl) (.inl (by rw [hb]; rfl)))
        fun _ => h.held_eq_none (by rw [hb]; rfl)
      rw [hb] at hj
      exact congrArg some hj
    exact hs₁.registerRecv rfl id hnil howner a.wsaRecv
  | onRecv i =>
    have howner := ((h.kept i).receives (by rw [hb]; rfl)).1
    have hfree : Sound (s.hold none) none := h.hold fun _ => rfl
    have hb' : (s.hold none).base = .onRecv i := hb
    have hs₁ : Sound ((s.hold none).enter (.dispatch i)) (some i) := by
      refine hfree.turn hnil rfl hnil (fun _ => id) (fun j hj => ?_)
        (hfree.slots.enter (by rw [hb']; rfl) (.inl (by rw [hb']; rfl))) fun _ => rfl
      rw [hb'] at hj
      exact congrArg some hj
    rw [Host.finish]
    split
    · exact hs₁.disconnect (Host.alive_of_base rfl) (by simp [Host.enter])
        (.inr (.inl rfl)) (.inl rfl)
    · exact hs₁.registerRecv rfl id hnil howner a.wsaRecv

/-! ## Completions -/

/-- `main` takes up a completion of a session. -/
theorem take (h : Sound s none) (hloop : s.base = .loop) (hi : s.Entered i) {base : Base}
    (hbase : base.session? = some i) (hevent : base.event? = none)
    (hreceives : ∀ j, base.Receives j → j = i)
    (hkept : Kept (f (s.sessions i)) True (base.Receives i) False False False)
    (hlistens : but ≠ some i → Listens (f (s.sessions i)) (base.Receives i)) :
    Sound ((s.modify i f).enter base) but := by
  have hnil := h.stack_eq_nil hloop
  have hstack : ((s.modify i f).enter base).stack = [] := hnil
  have hself : ((s.modify i f).enter base).sessions i = f (s.sessions i) :=
    Host.sessions_modify_self
  have hloop' : base ≠ .loop := by
    rintro rfl
    cases hbase
  refine (h.weaken i).change but (fun j hj => Host.sessions_modify_ne hj) (fun _ _ => Iff.rfl)
    (fun j hj => ?_) (fun j hj => ?_) ?_ ?_ (hstack ▸ List.nodup_nil) ?_ ?_ (fun _ => hnil)
    fun _ => h.held_eq_none (by rw [hloop]; rfl)
  · change base.session? = some j ↔ s.base.session? = some j
    rw [hloop, hbase]
    exact iff_of_false (fun heq => hj (Option.some.inj heq).symm) nofun
  · change base.Receives j ↔ s.base.Receives j
    rw [hloop]
    exact iff_of_false (fun hb => hj (hreceives j hb)) id
  · rw [hself, hstack]
    simpa [Host.enter, hbase] using hkept
  · rw [hself]
    exact hlistens
  · intro k rest hrest
    rw [hstack] at hrest
    exact absurd (List.suffix_nil.1 hrest) (List.cons_ne_nil k rest)
  · refine h.slots.change hi (fun j hj => Host.sessions_modify_ne hj) rfl rfl ?_ (fun j hj => ?_)
      fun hne => absurd hevent hne
    · rw [hloop]
      exact hevent
    · exact .inr (Option.some.inj (hbase.symm.trans hj)).symm

theorem received (h : Sound s none) (hloop : s.base = .loop)
    (hunder : (s.sessions i).recvEvent.underWay = true) (numOfBytes : ℕ) (overflow : Bool) :
    ∃ s', s.received i numOfBytes overflow = .ok s' ∧ Sound s' none := by
  have hk := h.kept i
  simp only [hloop, h.stack_eq_nil hloop, List.not_mem_nil] at hk
  have howner : (s.sessions i).recvEvent.owner = true := hk.recvOwner.2 (.inl hunder)
  have hi : s.Entered i := h.entered (.inr (.inr (.inl howner)))
  have hkept : ∀ B, Kept { s.sessions i with recvEvent := {} } True B False False False := fun B =>
    ⟨by simp, hk.sendOwner, hk.disconnectOwner, hk.inService, hk.inManager, hk.sendRegistered,
      False.elim, False.elim, fun _ => ⟨rfl, trivial⟩, False.elim, hk.disconnecting, by simp⟩
  simp only [Host.received, howner, Bool.true_eq_false, if_false, bind, Except.bind, pure,
    Except.pure]
  split
  · have hs₁ : Sound ((s.modify i fun g => { g with recvEvent := {} }).enter (.dispatch i))
        (some i) := h.take hloop hi rfl rfl nofun (hkept _) fun hne => absurd rfl hne
    exact hs₁.disconnect (Host.alive_of_base rfl) (by simp [Host.enter])
      (.inr (.inl rfl)) (.inl rfl)
  · exact ⟨_, rfl, h.take hloop hi rfl rfl (fun j hj => hj.symm) (hkept _)
      fun _ _ => .inr (.inl rfl)⟩

theorem sent (h : Sound s none) (hloop : s.base = .loop)
    (hunder : (s.sessions i).sendEvent.underWay = true) (numOfBytes : ℕ) (result : SocketResult) :
    ∃ s', s.sent i numOfBytes result = .ok s' ∧ Sound s' none := by
  have hk := h.kept i
  have hl := h.listens i (by simp)
  simp only [hloop, h.stack_eq_nil hloop, List.not_mem_nil] at hk hl
  have howner : (s.sessions i).sendEvent.owner = true := hk.sendOwner.2 (.inl hunder)
  have hi : s.Entered i := h.entered (.inr (.inr (.inr (.inl howner))))
  have hs₁ : Sound ((s.modify i fun g => { g with sendEvent := {} }).enter (.dispatch i)) none :=
    h.take hloop hi rfl rfl nofun
      ⟨hk.recvOwner, by simp, hk.disconnectOwner, hk.inService, hk.inManager, by simp, False.elim,
        False.elim, False.elim, False.elim, hk.disconnecting, by simp⟩ fun _ => hl
  set s₁ := (s.modify i fun g => { g with sendEvent := {} }).enter (.dispatch i) with hdef
  have hself : s₁.sessions i = { s.sessions i with sendEvent := {} } := by
    rw [hdef, Host.sessions_enter, Host.sessions_modify_self]
  have halive : s₁.alive i = true := Host.alive_of_base rfl
  have hbase : s₁.base ≠ .loop := by simp [hdef, Host.enter]
  simp only [Host.sent, howner, Bool.true_eq_false, if_false, bind, Except.bind, pure,
    Except.pure]
  rw [← hdef]
  split
  · exact (hs₁.weaken i).disconnect halive hbase (.inr (.inl rfl)) (.inl rfl)
  · split
    · have hk₁ := hs₁.kept i
      refine ⟨_, rfl, (hs₁.weaken i).modify none (hs₁.slots.entered i rfl) ?_
        fun _ => hs₁.listens i (by simp)⟩
      exact ⟨hk₁.recvOwner, hk₁.sendOwner, hk₁.disconnectOwner, hk₁.inService, hk₁.inManager,
        by simp [hself], hk₁.sending, hk₁.receiving, hk₁.receives, hk₁.leaving, hk₁.disconnecting,
        hk₁.grounded⟩
    · refine hs₁.registerSend halive hbase (by rw [hself]) ?_ result
      rw [hself]
      exact hk.sendRegistered howner

theorem disconnected (h : Sound s none) (hloop : s.base = .loop)
    (hunder : (s.sessions i).disconnectEvent.underWay = true) :
    ∃ s', s.disconnected i = .ok s' ∧ Sound s' none := by
  have hk := h.kept i
  have hl := h.listens i (by simp)
  simp only [hloop, h.stack_eq_nil hloop, List.not_mem_nil] at hk hl
  have howner : (s.sessions i).disconnectEvent.owner = true := hk.disconnectOwner.trans hunder
  have hi : s.Entered i := h.entered (.inr (.inr (.inr (.inr howner))))
  simp only [Host.disconnected, howner, Bool.true_eq_false, if_false, bind, Except.bind, pure,
    Except.pure]
  exact ⟨_, rfl, h.take hloop hi rfl rfl nofun
    ⟨hk.recvOwner, hk.sendOwner, rfl, hk.inService, hk.inManager, hk.sendRegistered, False.elim,
      False.elim, False.elim, False.elim, fun _ => rfl, by simp⟩ fun _ => hl⟩

theorem accepted (h : Sound s none) (hloop : s.base = .loop) {event : ℕ}
    (hslot : s.acceptEvents[event]? = some (some i)) (ok : Bool) :
    Sound (s.accepted event i ok) none := by
  have hnil := h.stack_eq_nil hloop
  have hnew : s.sessions i = {} := h.slots.new event i hslot (by simp [hloop, Base.event?])
  cases ok with
  | false =>
    refine h.turn hnil rfl hnil (fun _ => id) (fun j hj => ?_)
      (h.slots.accept hloop hslot (fun _ _ => rfl) rfl rfl rfl rfl)
      fun _ => h.held_eq_none (by rw [hloop]; rfl)
    rw [hloop] at hj
    exact hj.elim
  | true =>
    set s' := s.accepted event i true with hs'
    have hself : s'.sessions i = { connected := true, inService := true, inManager := true } := by
      rw [hs', Host.accepted, if_pos rfl, Host.sessions_enter, Host.sessions_modify_self, hnew]
    have hstack : s'.stack = [] := hnil
    have hne : ∀ j, j ≠ i → s'.sessions j = s.sessions j := by
      intro j hj
      rw [hs', Host.accepted, if_pos rfl, Host.sessions_enter, Host.sessions_modify_ne hj]
    refine (h.weaken i).change none hne (fun _ _ => Iff.rfl) (fun j hj => ?_) (fun j hj => ?_) ?_ ?_
      (hstack ▸ List.nodup_nil) ?_ (h.slots.accept hloop hslot hne rfl rfl rfl rfl)
      (fun _ => hnil) fun _ => h.held_eq_none (by rw [hloop]; rfl)
    · change some i = some j ↔ s.base.session? = some j
      rw [hloop]
      exact iff_of_false (fun heq => hj (Option.some.inj heq).symm)
        (by simp [Base.session?])
    · change i = j ↔ s.base.Receives j
      rw [hloop]
      exact iff_of_false (fun heq => hj heq.symm) id
    · rw [hself, hstack]
      exact ⟨by simp, by simp, rfl, by simp, rfl, by simp, by simp, by simp, fun _ => ⟨rfl, rfl⟩,
        by simp, by simp, by simp⟩
    · exact fun _ _ => .inr (.inl rfl)
    · intro k rest hrest
      rw [hstack] at hrest
      exact absurd (List.suffix_nil.1 hrest) (List.cons_ne_nil k rest)

/-! ## Content code -/

theorem base_ne_loop (h : Sound s none) (hin : s.inContent = true) : s.base ≠ .loop := by
  intro hloop
  have hnil := h.stack_eq_nil hloop
  simp [Host.inContent, hnil, hloop] at hin

/-- What content code notes in a session that has entered. -/
theorem setPlayer (h : Sound s none) (hi : s.Entered i) (b : Bool) :
    Sound (s.modify i fun g => { g with hasPlayer := b }) none := by
  have hk := h.kept i
  exact (h.weaken i).modify none hi ⟨hk.recvOwner, hk.sendOwner, hk.disconnectOwner, hk.inService,
    hk.inManager, hk.sendRegistered, hk.sending, hk.receiving, hk.receives, hk.leaving,
    hk.disconnecting, hk.grounded⟩ fun _ => h.listens i (by simp)

end Sound

namespace Host

theorem base_of_idle (h : s.idle = true) : s.base = .loop := by
  simpa using (Bool.and_eq_true_iff.1 h).1

theorem base_of_entering (h : s.entering = some i) : s.base.session? = some i := by
  unfold entering at h
  split at h
  · rename_i hb
    rw [hb]
    exact h
  · cases h

end Host

/-- The server is where a step can go wrong: a `RegisterSend` that goes on is all that is left to
refer to its session. -/
def Host.Dangles (s : Host) (e : Event) : Prop :=
  ∃ a i rest, e = .returns a ∧ s.stack = .registerSend i :: rest ∧ s.Last i

namespace Sound

/-- The last function on the stack goes on, or the one that `main` is in. -/
theorem returns (h : Sound s none) (a : Answers) :
    s.Dangles (.returns a) ∧ s.step (.returns a) = .error .destroyed ∨
      ¬ s.Dangles (.returns a) ∧ ∃ s', s.step (.returns a) = .ok s' ∧ Sound s' none := by
  cases hstack : s.stack with
  | nil =>
    refine .inr ⟨?_, ?_⟩
    · rintro ⟨_, _, _, -, hcons, -⟩
      rw [hstack] at hcons
      cases hcons
    · rw [Host.step, Host.returns, hstack]
      exact h.finish hstack a
  | cons k rest =>
    have hreturns : s.step (.returns a) = { s with stack := rest }.resume a k := by
      rw [Host.step, Host.returns, hstack]
    have hdangles : s.Dangles (.returns a) ↔ ∃ i, k = .registerSend i ∧ s.Last i := by
      constructor
      · rintro ⟨_, i, rest', -, hcons, hlast⟩
        exact ⟨i, (List.cons.inj (hstack.symm.trans hcons)).1, hlast⟩
      · rintro ⟨i, rfl, hlast⟩
        exact ⟨a, i, rest, rfl, hstack, hlast⟩
    rw [hdangles, hreturns]
    cases k with
    | disconnect i => exact .inr ⟨by simp, h.resume_disconnect hstack a⟩
    | registerRecv i => exact .inr ⟨by simp, h.resume_registerRecv hstack a⟩
    | registerSend i =>
      rcases h.resume_registerSend hstack a with ⟨hlast, herror⟩ | ⟨hlast, hok⟩
      · exact .inl ⟨⟨i, rfl, hlast⟩, herror⟩
      · refine .inr ⟨?_, hok⟩
        rintro ⟨j, heq, hlast'⟩
        cases heq
        exact hlast hlast'

/-- **One step**: it goes wrong in one way only, and otherwise keeps the invariant. -/
theorem step (h : Sound s none) {e : Event} (he : s.possible e = true) :
    s.Dangles e ∧ s.step e = .error .destroyed ∨
      ¬ s.Dangles e ∧ ∃ s', s.step e = .ok s' ∧ Sound s' none := by
  have keep : (∀ a, e ≠ .returns a) → (∃ s', s.step e = .ok s' ∧ Sound s' none) →
      s.Dangles e ∧ s.step e = .error .destroyed ∨
        ¬ s.Dangles e ∧ ∃ s', s.step e = .ok s' ∧ Sound s' none := by
    intro hne hs'
    refine .inr ⟨?_, hs'⟩
    rintro ⟨a, _, _, heq, -⟩
    exact hne a heq
  cases e with
  | accepted event ok =>
    refine keep (by simp) ?_
    obtain ⟨hidle, hslot⟩ := Bool.and_eq_true_iff.1 he
    obtain ⟨i, hi⟩ := Option.isSome_iff_exists.1 hslot
    refine ⟨s.accepted event i ok, ?_, h.accepted (Host.base_of_idle hidle)
      (Option.join_eq_some_iff.1 hi) ok⟩
    rw [Host.step, hi]
    rfl
  | received i numOfBytes overflow =>
    obtain ⟨hidle, hunder⟩ := Bool.and_eq_true_iff.1 he
    exact keep (by simp) (h.received (Host.base_of_idle hidle) hunder numOfBytes overflow)
  | sent i numOfBytes result =>
    obtain ⟨hidle, hunder⟩ := Bool.and_eq_true_iff.1 he
    exact keep (by simp) (h.sent (Host.base_of_idle hidle) hunder numOfBytes result)
  | disconnected i =>
    obtain ⟨hidle, hunder⟩ := Bool.and_eq_true_iff.1 he
    exact keep (by simp) (h.disconnected (Host.base_of_idle hidle) hunder)
  | update =>
    have hloop := Host.base_of_idle he
    have hnil := h.stack_eq_nil hloop
    refine keep (by simp) ⟨_, rfl, h.turn hnil rfl hnil (fun _ => id) (fun j hj => ?_)
      (h.slots.enter (by rw [hloop]; rfl) (.inr rfl)) nofun⟩
    rw [hloop] at hj
    exact hj.elim
  | toPlayer i result =>
    obtain ⟨hin, hplayer⟩ := Bool.and_eq_true_iff.1 he
    exact keep (by simp) (h.send (Host.alive_iff.2 (.inl (by simp [GameSession.referenced, hplayer])))
      (h.base_ne_loop hin) (h.entered (.inr (.inl hplayer))) result)
  | toSelf result =>
    obtain ⟨i, hi⟩ := Option.isSome_iff_exists.1 he
    have hbase := Host.base_of_entering hi
    refine keep (by simp) ?_
    rw [Host.step, hi]
    refine h.send (Host.alive_of_base hbase) (fun hloop => ?_)
      (h.slots.entered i hbase) result
    rw [hloop] at hbase
    cases hbase
  | addPlayer =>
    obtain ⟨i, hi⟩ := Option.isSome_iff_exists.1 he
    refine keep (by simp) ⟨_, rfl, ?_⟩
    rw [hi]
    exact h.setPlayer (h.slots.entered i (Host.base_of_entering hi)) true
  | removePlayer i =>
    obtain ⟨-, hplayer⟩ := Bool.and_eq_true_iff.1 he
    exact keep (by simp) ⟨_, rfl, h.setPlayer (h.entered (.inr (.inl hplayer))) false⟩
  | hold i =>
    simp only [Host.possible, Bool.and_eq_true] at he
    refine keep (by simp) ⟨_, rfl, h.hold fun hfalse => ?_⟩
    rw [he.1.1.2] at hfalse
    cases hfalse
  | release => exact keep (by simp) ⟨_, rfl, h.hold fun _ => rfl⟩
  | returns a => exact h.returns a

end Sound

/-! ## Runs -/

/-- `StartAccept` adds an accept event. -/
theorem Slots.push (h : Slots s) (hloop : s.base = .loop) :
    Slots { s with acceptEvents := s.acceptEvents ++ [none] } := by
  have hslot : ∀ {e i : ℕ}, (s.acceptEvents ++ [none])[e]? = some (some i) →
      s.acceptEvents[e]? = some (some i) := by
    intro e i he
    rw [List.getElem?_append] at he
    split at he
    · exact he
    · rw [List.getElem?_singleton] at he
      split at he <;> simp at he
  refine ⟨fun e i he => h.lt e i (hslot he),
    fun e e' i he he' => h.inj e e' i (hslot he) (hslot he'),
    fun e i he => h.new e i (hslot he), h.unborn, ?_, ?_⟩
  · simp [hloop, Base.session?]
  · simp [hloop, Base.event?]

theorem sound_startAccept (failures : List ℕ) : Sound (Host.startAccept failures) none := by
  have hempty : Sound ({} : Host) none := by
    refine ⟨fun i => ?_, fun i _ => ?_, List.nodup_nil, fun f rest hrest => ?_, ?_, fun _ => rfl, ?_⟩
    · exact ⟨by simp, by simp, rfl, by simp, rfl, by simp, by simp, by simp, False.elim, by simp,
        by simp, by simp⟩
    · rintro ⟨⟩
    · exact absurd (List.suffix_nil.1 hrest) (List.cons_ne_nil f rest)
    · exact ⟨by simp, by simp, by simp, fun _ _ => rfl, nofun, nofun⟩
    · exact fun _ => rfl
  have hfold : ∀ s : Host, Sound s none → s.base = .loop →
      Sound (failures.foldl Host.pushAccept s) none := by
    induction failures with
    | nil => exact fun s hs _ => hs
    | cons n failures ih =>
      intro s hs hloop
      have hslots : Slots (s.pushAccept n) := by
        have hset := (hs.slots.push hloop).registerAccept s.acceptEvents.length n
          (by simp [hloop, Base.event?])
        rw [← hloop] at hset
        exact hset
      refine ih _ (hs.turn (hs.stack_eq_nil hloop) rfl (hs.stack_eq_nil hloop) ?_ ?_ hslots
        fun _ => hs.held_eq_none (by rw [hloop]; rfl)) hloop
      · simp [Host.pushAccept, Host.registerAccept, hloop, Base.Receives]
      · simp [hloop, Base.Receives]
  exact hfold {} hempty rfl

/-- The server reaches the state, whatever Winsock answers. -/
def Reachable (s : Host) : Prop :=
  ∃ failures, Reaches Steps (fun _ _ => True) (Host.startAccept failures) s

theorem sound_of_run (h : Reachable s) : Sound s none := by
  obtain ⟨failures, hrun⟩ := h
  refine hrun.invariant (I := fun s => Sound s none) (fun s e s' hs _ hstep => ?_)
    (sound_startAccept failures)
  rcases hs.step hstep.1 with ⟨-, herror⟩ | ⟨-, s'', hok, hs''⟩
  · cases herror.symm.trans hstep.2
  · rwa [Except.ok.inj (hstep.2.symm.trans hok)]

/-- A session that dangles has lost its receive. -/
theorem Host.Last.recvLost (hlast : s.Last i) (h : Reachable s)
    (hmem : .registerSend i ∈ s.stack) : (s.sessions i).recvLost = true := by
  rcases ((sound_of_run h).kept i).grounded (.inr (.inl hmem)) with hunder | hbase | hlost
  · rw [hlast.recvEvent] at hunder
    cases hunder
  · exact absurd hbase hlast.base
  · exact hlost

/-- **No fault**: as long as every `WSARecv` that has failed at once has failed with a code that
disconnects, the next step does not go wrong. -/
theorem no_fault_of_run (h : Reachable s) (hlost : ∀ i, (s.sessions i).recvLost = false)
    {e : Event} (he : s.possible e = true) : ∃ s', s.step e = .ok s' := by
  rcases (sound_of_run h).step he with ⟨⟨a, i, rest, -, hstack, hlast⟩, -⟩ | ⟨-, s', hok, -⟩
  · have htrue := hlast.recvLost h (by rw [hstack]; exact List.mem_cons_self)
    rw [hlost i] at htrue
    cases htrue
  · exact ⟨s', hok⟩

/-- **The life of a session**: between two turns of the main loop it exists exactly if it is
connected, one of its operations is under way, it waits for a client, or a player has it. -/
theorem alive_iff_of_run (h : Reachable s) (hloop : s.base = .loop) (i : ℕ) :
    s.alive i = true ↔ (s.sessions i).connected = true ∨
      (s.sessions i).recvEvent.underWay = true ∨ (s.sessions i).sendEvent.underWay = true ∨
      (s.sessions i).disconnectEvent.underWay = true ∨ some i ∈ s.acceptEvents ∨
      (s.sessions i).hasPlayer = true := by
  have hs := sound_of_run h
  have hk := hs.kept i
  simp only [hs.stack_eq_nil hloop, List.not_mem_nil] at hk
  have hheld : s.held = none := hs.held_eq_none (by rw [hloop]; rfl)
  rw [Host.alive_iff]
  simp only [GameSession.referenced, Bool.or_eq_true, hk.inService, hk.inManager, hk.recvOwner,
    hk.sendOwner, hk.disconnectOwner, hloop, hheld, Base.session?, reduceCtorEq, or_false]
  tauto

end Invariant

/-! ## Two runs -/

theorem reachable_of_follows (failures : List ℕ) (es : List Event)
    (h : Reaches.follows (fun (s : Host) e => s.possible e && (s.step e).isOk)
      (fun s e => (s.step e).toOption.getD s) (Host.startAccept failures) es = true) :
    Reachable (es.foldl (fun s e => (s.step e).toOption.getD s) (Host.startAccept failures)) := by
  refine ⟨failures, Reaches.of_follows (fun s e he => ⟨trivial, ?_⟩) h⟩
  obtain ⟨hpossible, hok⟩ := Bool.and_eq_true_iff.1 he
  refine ⟨hpossible, ?_⟩
  cases hstep : s.step e with
  | ok s' => rfl
  | error fault =>
    rw [hstep] at hok
    cases hok

/-- What `OnConnected` does for the first client. -/
def enters : List Event :=
  [.accepted 0 true, .toSelf .accepted, .toSelf .accepted, .toSelf .accepted, .addPlayer,
    .toPlayer 0 .accepted]

/-- The first client's player enters, but `WSARecv` fails with `WSAENOBUFS`. Its messages are
sent. -/
def deaf : List Event :=
  enters ++ [.returns { wsaRecv := .failed 10055 }, .returns {}, .returns {}, .sent 0 4 .accepted,
    .returns {}, .sent 0 99 .accepted, .returns {}]

/-- What `Broadcast` comes to when it finds the connection of the first client reset, and
`DisconnectEx` fails too, up to where `RegisterSend` goes on. -/
def resets (others : List Event) : List Event :=
  .toPlayer 0 (.failed 10054) :: others ++ [.returns { disconnectEx := false }]

/-- Nobody else comes, and the broadcast of a monster whose target is the first client's player is
the one. -/
def spared : List Event := deaf ++ [.update, .hold 0] ++ resets []

/-- The client closes its connection again, while the second accept event goes on waiting. -/
def closes : List Event :=
  enters ++ [.returns {}, .returns {}, .sent 0 4 .accepted, .returns {}, .sent 0 99 .accepted,
    .returns {}, .received 0 0 false, .returns {}, .returns {}, .disconnected 0, .returns {}]

theorem alive_iff_of_run_closes :
    ∃ s, Reachable s ∧ s.base = .loop ∧
      s.alive 0 = false ∧ s.alive 1 = true ∧ s.alive 2 = true := by
  have hrun := reachable_of_follows [0, 0] closes (by decide)
  refine ⟨_, hrun, rfl, ?_, ?_, ?_⟩
  · rw [← Bool.not_eq_true, alive_iff_of_run hrun rfl]
    decide
  · exact (alive_iff_of_run hrun rfl 1).2 (.inr (.inr (.inr (.inr (.inl (by decide))))))
  · exact (alive_iff_of_run hrun rfl 2).2 (.inr (.inr (.inr (.inr (.inl (by decide))))))

end Zelda.ServerCore.Lifetime
