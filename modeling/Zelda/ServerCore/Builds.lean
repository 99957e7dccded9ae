import Zelda.ServerCore.SendBuffer
import Mathlib.Data.Finset.Insert

/-!
# Debug and Release

The Release configurations define `NDEBUG`, and then `assert(e)` does not evaluate `e`. The source
serializes messages, erases sessions, binds the socket functions and starts the service inside of
asserts.

`builds_agree_iff` compares the two builds where all assertions of the Debug build hold: they agree
exactly on messages whose bytes are all 0 (the buffer is filled with zeros), on session histories in
which every released session is added again, and on no startup.
-/

namespace Zelda.ServerCore

open Memory Word

/-! ## Assertions -/

/-- The two kinds of configurations. -/
inductive Build
  | debug
  | release
  deriving DecidableEq, Repr

/-- `assert(e)`, for an expression with side effects. -/
def Build.assert {σ : Type*} (e : σ → Except BuildFault (Bool × σ)) (s : σ) :
    Build → Except BuildFault σ
  | .debug => do
    let (holds, s) ← e s
    if holds then return s else throw .assertionFailed
  | .release => return s

theorem assert_debug_eq_ok {σ : Type*} {e : σ → Bool × σ} {s s' : σ}
    (h : Build.assert (fun s => .ok (e s)) s .debug = .ok s') : (e s).1 = true ∧ (e s).2 = s' := by
  cases he : (e s).1 with
  | true =>
    refine ⟨rfl, ?_⟩
    simpa [Build.assert, bind, Except.bind, he, pure, Except.pure] using h
  | false => simp [Build.assert, bind, Except.bind, he, throw, throwThe, MonadExceptOf.throw] at h

/-! ## Messages -/

section Message

variable {M : Type*} (P : Protobuf M)

/-- `MakeSendBuffer` -/
def makeSendBufferIn (b : Build) (m : M) (pktId : UInt16) : Except BuildFault SendBuffer := do
  let dataSize := UInt16.ofNat (P.byteSizeLong m)
  let packetSize := UInt16.ofNat (dataSize.toNat + sizeofPacketHeader)
  let buffer := List.replicate packetSize.toNat 0
  let buffer ← store buffer 0 (bytes16 packetSize)
  let buffer ← store buffer 2 (bytes16 pktId)
  let buffer ←
    b.assert (fun buffer => P.serializeToArray m buffer sizeofPacketHeader dataSize.toNat) buffer
  return ⟨buffer, packetSize.toNat⟩

/-- With asserts this is the function that the packets are built with. -/
theorem makeSendBufferIn_debug (m : M) (pktId : UInt16) :
    makeSendBufferIn P .debug m pktId = makeSendBuffer P m pktId := by
  simp only [makeSendBufferIn, makeSendBuffer, Build.assert, bind_assoc]
  congr 1
  funext buffer
  congr 1
  funext buffer'
  congr 1
  funext p
  obtain ⟨success, buffer''⟩ := p
  cases success <;> rfl

variable {P} {m : M} (pktId : UInt16)

/-- Without asserts the payload is what the buffer was filled with. -/
theorem makeSendBufferIn_release (h : P.byteSizeLong m ≤ 65531) :
    makeSendBufferIn P .release m pktId = .ok
      ⟨bytes16 (UInt16.ofNat (P.byteSizeLong m + sizeofPacketHeader)) ++ bytes16 pktId ++
        List.replicate (P.byteSizeLong m) 0, (P.byteSizeLong m + sizeofPacketHeader : ℕ)⟩ := by
  have hdata : (UInt16.ofNat (P.byteSizeLong m)).toNat = P.byteSizeLong m := by
    rw [UInt16.toNat_ofNat']
    omega
  have hpacket : (UInt16.ofNat (P.byteSizeLong m + sizeofPacketHeader)).toNat =
      P.byteSizeLong m + sizeofPacketHeader := by
    rw [UInt16.toNat_ofNat', sizeofPacketHeader]
    omega
  set size := UInt16.ofNat (P.byteSizeLong m + sizeofPacketHeader) with hsize
  have h₁ := store_append_replicate [] (bytes16 size) (n := P.byteSizeLong m + 4) (by simp)
  have h₂ := store_append_replicate (bytes16 size) (bytes16 pktId)
    (n := P.byteSizeLong m + 2) (by simp)
  simp only [List.nil_append, List.length_nil, length_bytes16, Nat.add_sub_cancel,
    show P.byteSizeLong m + 4 - 2 = P.byteSizeLong m + 2 by omega] at h₁ h₂
  simp only [makeSendBufferIn, hdata, ← hsize, hpacket]
  simp only [sizeofPacketHeader, bind, Except.bind, h₁, h₂, Build.assert, pure, Except.pure]

theorem sent_of_writeSize {b : SendBuffer} (h : b.writeSize = b.buffer.length) :
    b.sent = b.buffer := by
  rw [SendBuffer.sent, h, slice, Int.toNat_natCast, List.drop_zero, List.take_length]

/-- The two builds send the same bytes exactly if the message consists of zeros. -/
theorem sent_release_iff {b : SendBuffer} (hb : makeSendBufferIn P .debug m pktId = .ok b) :
    (makeSendBufferIn P .release m pktId).map SendBuffer.sent = .ok b.sent ↔
      ∀ x ∈ P.serialize m, x = 0 := by
  have hle : P.byteSizeLong m ≤ 65531 := by
    by_contra hlt
    obtain ⟨fault, hfault⟩ := makeSendBuffer_of_lt pktId (P := P) (m := m) (by omega)
    rw [makeSendBufferIn_debug, hfault] at hb
    cases hb
  rw [makeSendBufferIn_debug, makeSendBuffer_of_le pktId hle] at hb
  obtain rfl := Except.ok.inj hb
  have hlen := P.length_serialize m
  rw [makeSendBufferIn_release pktId hle, sent_of_writeSize (by rw [length_packetBytes])]
  change Except.ok (SendBuffer.sent _) = _ ↔ _
  rw [sent_of_writeSize, Except.ok.injEq, packetBytes, List.append_right_inj, eq_comm,
    List.eq_replicate_iff, and_iff_right hlen]
  simp only [List.length_append, length_bytes16, List.length_replicate, sizeofPacketHeader]
  omega

end Message

/-! ## Sessions -/

/-- The sessions of `class Service`. -/
structure Service (ι : Type*) where
  sessions : Finset ι := ∅
  sessionCount : ℤ := 0

/-- The calls a service gets from its sessions. -/
inductive ServiceCall (ι : Type*)
  | addSession (i : ι)
  | releaseSession (i : ι)
  deriving DecidableEq

namespace Service

variable {ι : Type*} [DecidableEq ι] (s : Service ι)

/-- `Service::AddSession` -/
def addSession (i : ι) : Service ι :=
  { sessions := insert i s.sessions, sessionCount := s.sessionCount + 1 }

/-- `_sessions.erase(session) != 0` -/
def eraseSession (i : ι) : Bool × Service ι :=
  (i ∈ s.sessions, { s with sessions := s.sessions.erase i })

/-- `Service::ReleaseSession` -/
def releaseSession (b : Build) (i : ι) : Except BuildFault (Service ι) := do
  let s ← b.assert (fun s => .ok (s.eraseSession i)) s
  return { s with sessionCount := s.sessionCount - 1 }

/-- `Service::ReleaseSession` with an assertion that is evaluated and holds. -/
def released (i : ι) : Service ι :=
  { sessions := s.sessions.erase i, sessionCount := s.sessionCount - 1 }

def call (b : Build) : ServiceCall ι → Except BuildFault (Service ι)
  | .addSession i => return s.addSession i
  | .releaseSession i => s.releaseSession b i

variable {s}

theorem releaseSession_debug {i : ι} (hi : i ∈ s.sessions) :
    s.releaseSession .debug i = .ok (s.released i) := by
  simp [releaseSession, released, Build.assert, eraseSession, hi, bind, Except.bind, pure,
    Except.pure]

theorem releaseSession_debug_of_notMem {i : ι} (hi : i ∉ s.sessions) :
    s.releaseSession .debug i = .error .assertionFailed := by
  simp [releaseSession, Build.assert, eraseSession, hi, bind, Except.bind, throw, throwThe,
    MonadExceptOf.throw]

/-- A session history, from an empty service on. -/
def run (b : Build) (history : List (ServiceCall ι)) : Except BuildFault (Service ι) :=
  history.foldlM (fun s c => s.call b c) {}

end Service

/-- The session is released, and not added again. -/
def Gone {ι : Type*} (i : ι) (history : List (ServiceCall ι)) : Prop :=
  ∃ before after, history = before ++ .releaseSession i :: after ∧ .addSession i ∉ after

section History

variable {ι : Type*} {i j : ι} {history : List (ServiceCall ι)} {c : ServiceCall ι}

theorem gone_append_iff :
    Gone i (history ++ [c]) ↔ c = .releaseSession i ∨ Gone i history ∧ c ≠ .addSession i := by
  constructor
  · rintro ⟨before, after, heq, hafter⟩
    rcases List.eq_nil_or_concat' after with rfl | ⟨after, d, rfl⟩
    · exact .inl (List.singleton_inj.1 (List.append_inj' heq rfl).2)
    · rw [← List.cons_append, ← List.append_assoc] at heq
      obtain ⟨rfl, hcd⟩ := List.append_inj' heq rfl
      obtain rfl := List.singleton_inj.1 hcd
      rw [List.mem_append, List.mem_singleton, not_or] at hafter
      exact .inr ⟨⟨before, after, rfl, hafter.1⟩, fun hc => hafter.2 hc.symm⟩
  · rintro (rfl | ⟨⟨before, after, rfl, hafter⟩, hc⟩)
    · exact ⟨history, [], rfl, List.not_mem_nil⟩
    · refine ⟨before, after ++ [c], by simp, ?_⟩
      rw [List.mem_append, List.mem_singleton]
      rintro (hmem | heq)
      · exact hafter hmem
      · exact hc heq.symm

variable [DecidableEq ι] {d : Service ι}

/-- What the two builds hold after the same calls, when no assertion fails: the Release build still
has the sessions that are gone. -/
structure Leaks (history : List (ServiceCall ι)) (d r : Service ι) : Prop where
  mem_iff : ∀ i, i ∈ d.sessions ↔ i ∈ r.sessions ∧ ¬ Gone i history
  gone : ∀ i, Gone i history → i ∈ r.sessions

theorem Leaks.addSession {r : Service ι} (h : Leaks history d r) (i : ι) :
    Leaks (history ++ [.addSession i]) (d.addSession i) (r.addSession i) := by
  have hgone : ∀ j, Gone j (history ++ [.addSession i]) ↔ Gone j history ∧ i ≠ j := by
    intro j
    rw [gone_append_iff]
    simp
  constructor
  · intro j
    simp only [hgone, Service.addSession, Finset.mem_insert, h.mem_iff]
    rcases eq_or_ne j i with rfl | hne
    · simp
    · simp [hne, hne.symm]
  · intro j hj
    exact Finset.mem_insert_of_mem (h.gone j ((hgone j).1 hj).1)

theorem Leaks.releaseSession {r : Service ι} (h : Leaks history d r) {i : ι} (hi : i ∈ d.sessions) :
    Leaks (history ++ [.releaseSession i]) (d.released i) r := by
  have hgone : ∀ j, Gone j (history ++ [.releaseSession i]) ↔ i = j ∨ Gone j history := by
    intro j
    rw [gone_append_iff]
    simp
  constructor
  · intro j
    simp only [hgone, Service.released, Finset.mem_erase, h.mem_iff, not_or]
    tauto
  · intro j hj
    rcases (hgone j).1 hj with rfl | hj'
    · exact ((h.mem_iff i).1 hi).1
    · exact h.gone j hj'

theorem run_release_of_debug (h : Service.run .debug history = .ok d) :
    ∃ r, Service.run .release history = .ok r ∧ Leaks history d r := by
  induction history using List.reverseRecOn generalizing d with
  | nil =>
    obtain rfl := Except.ok.inj h
    refine ⟨{}, rfl, ⟨by simp, ?_⟩⟩
    rintro i ⟨before, after, heq, -⟩
    simp at heq
  | append_singleton history c ih =>
    rw [Service.run, List.foldlM_append] at h ⊢
    cases hd : Service.run .debug history with
    | error fault =>
      rw [Service.run] at hd
      rw [hd] at h
      cases h
    | ok d₀ =>
      obtain ⟨r₀, hr₀, hleaks⟩ := ih hd
      rw [Service.run] at hd hr₀
      rw [hd] at h
      rw [hr₀]
      cases c with
      | addSession i =>
        obtain rfl := Except.ok.inj h
        exact ⟨_, rfl, hleaks.addSession i⟩
      | releaseSession i =>
        by_cases hi : i ∈ d₀.sessions
        · have hcall : d₀.call .debug (.releaseSession i) = _ := Service.releaseSession_debug hi
          obtain rfl : _ = d := by
            simpa [bind, Except.bind, hcall, pure, Except.pure] using h
          have hleaks' := hleaks.releaseSession hi
          exact ⟨_, rfl, ⟨hleaks'.mem_iff, hleaks'.gone⟩⟩
        · have hcall : d₀.call .debug (.releaseSession i) = _ :=
            Service.releaseSession_debug_of_notMem hi
          simp [bind, Except.bind, hcall] at h

/-- The two builds hold the same sessions exactly if no released session stays away. -/
theorem sessions_release_iff (h : Service.run .debug history = .ok d) :
    (Service.run .release history).map Service.sessions = .ok d.sessions ↔
      ∀ i, ¬ Gone i history := by
  obtain ⟨r, hr, hleaks⟩ := run_release_of_debug h
  rw [hr]
  change Except.ok r.sessions = .ok d.sessions ↔ _
  rw [Except.ok.injEq]
  constructor
  · intro heq i hi
    have hmem := hleaks.gone i hi
    rw [heq, hleaks.mem_iff] at hmem
    exact hmem.2 hi
  · intro hnone
    ext i
    rw [hleaks.mem_iff, and_iff_left (hnone i)]

end History

/-! ## Startup -/

/-- How the calls of the startup end when they are made. -/
structure Environment where
  wsaStartup : Bool
  connectEx : Bool
  disconnectEx : Bool
  acceptEx : Bool
  createSocket : Bool
  register : Bool
  setReuseAddress : Bool
  setLinger : Bool
  bindAddress : Bool
  listen : Bool

/-- What the startup has brought up. -/
structure Started where
  winsock : Bool := false
  /-- The functions that `SocketUtils::Init` looks up. -/
  connectEx : Bool := false
  disconnectEx : Bool := false
  acceptEx : Bool := false
  /-- How many `AcceptEx` the listener has under way. -/
  accepts : ℕ := 0
  deriving DecidableEq

/-- The `maxSessionCount` of the server. -/
def maxSessionCount : ℕ := 100

namespace Environment

variable (env : Environment)

/-- `SocketUtils::Init` -/
def init (b : Build) (s : Started) : Except BuildFault Started := do
  let s ← b.assert (fun s => .ok (env.wsaStartup, { s with winsock := env.wsaStartup })) s
  let s ← b.assert (fun s => .ok (env.connectEx, { s with connectEx := env.connectEx })) s
  let s ← b.assert (fun s => .ok (env.disconnectEx, { s with disconnectEx := env.disconnectEx })) s
  b.assert (fun s => .ok (env.acceptEx, { s with acceptEx := env.acceptEx })) s

/-- `Listener::StartAccept` as `ServerService::Start` calls it. -/
def start (s : Started) : Bool × Started :=
  if env.createSocket && env.register && env.setReuseAddress && env.setLinger && env.bindAddress &&
    env.listen then (true, { s with accepts := maxSessionCount })
  else (false, s)

/-- `main` up to its loop. -/
def main (b : Build) : Except BuildFault Started := do
  let s ← env.init b {}
  b.assert (fun s => .ok (env.start s)) s

/-- A server whose assertions all hold listens. -/
theorem accepts_of_main_debug {s : Started} (h : env.main .debug = .ok s) :
    s.accepts = maxSessionCount := by
  cases hinit : env.init .debug {} with
  | error fault => simp [main, bind, Except.bind, hinit] at h
  | ok s₁ =>
    have hassert : Build.assert (fun s => .ok (env.start s)) s₁ .debug = .ok s := by
      simpa [main, bind, Except.bind, hinit] using h
    obtain ⟨htrue, rfl⟩ := assert_debug_eq_ok hassert
    rw [start] at htrue ⊢
    split
    · rfl
    · rename_i hfalse
      rw [if_neg hfalse] at htrue
      cases htrue

end Environment

/-! ## The two builds -/

/-- What the builds are compared on. -/
inductive Input (M ι : Type*)
  | message (m : M) (pktId : UInt16)
  | history (calls : List (ServiceCall ι))
  | startup (env : Environment)

/-- What they are compared by: the bytes of a packet, `Service::_sessions`, the started service. -/
inductive Outcome (ι : Type*)
  | bytes (sent : List UInt8)
  | sessions (sessions : Finset ι)
  | started (s : Started)

section Agree

variable {M ι : Type*} [DecidableEq ι] (P : Protobuf M)

def Input.run (b : Build) : Input M ι → Except BuildFault (Outcome ι)
  | .message m pktId => (makeSendBufferIn P b m pktId).map fun buffer => .bytes buffer.sent
  | .history calls => (Service.run b calls).map fun s => .sessions s.sessions
  | .startup env => (env.main b).map .started

/-- The asserted expressions change nothing. -/
def Input.HasNoEffect : Input M ι → Prop
  | .message m _ => ∀ x ∈ P.serialize m, x = 0
  | .history calls => ∀ i, ¬ Gone i calls
  | .startup _ => False

theorem map_eq_ok {α β : Type*} {x : Except BuildFault α} {f : α → β} {y : β}
    (h : x.map f = .ok y) : ∃ a, x = .ok a ∧ f a = y := by
  cases x with
  | error fault => cases h
  | ok a => exact ⟨a, rfl, Except.ok.inj h⟩

theorem map_ok_iff {α β γ : Type*} {x : Except BuildFault α} {f : α → β} {g : β → γ} {y : β}
    (hg : ∀ {b b'}, g b = g b' → b = b') :
    x.map (fun a => g (f a)) = .ok (g y) ↔ x.map f = .ok y := by
  cases x with
  | error fault => exact iff_of_false (fun h => nomatch h) (fun h => nomatch h)
  | ok a =>
    change Except.ok (g (f a)) = .ok (g y) ↔ Except.ok (f a) = .ok y
    rw [Except.ok.injEq, Except.ok.injEq]
    exact ⟨hg, congrArg g⟩

/-- **When the builds agree**: where the assertions of the Debug build all hold, the Release build
gives the same bytes, sessions and service exactly if the asserted expressions change nothing: for a
message whose bytes are all 0, for a history that leaves no session released, for no startup. -/
theorem builds_agree_iff {input : Input M ι} {outcome : Outcome ι}
    (h : input.run P .debug = .ok outcome) :
    input.run P .release = .ok outcome ↔ input.HasNoEffect P := by
  cases input with
  | message m pktId =>
    obtain ⟨b, hb, rfl⟩ := map_eq_ok h
    have hiff := map_ok_iff (x := makeSendBufferIn P .release m pktId) (f := SendBuffer.sent)
      (g := Outcome.bytes (ι := ι)) (y := b.sent) Outcome.bytes.inj
    exact hiff.trans (sent_release_iff pktId hb)
  | history calls =>
    obtain ⟨d, hd, rfl⟩ := map_eq_ok h
    have hiff := map_ok_iff (x := Service.run .release calls) (f := Service.sessions)
      (g := Outcome.sessions) (y := d.sessions) Outcome.sessions.inj
    exact hiff.trans (sessions_release_iff hd)
  | startup env =>
    obtain ⟨s, hs, rfl⟩ := map_eq_ok h
    refine iff_of_false (fun hrelease => ?_) id
    have hempty : Except.ok (Outcome.started {}) = Except.ok (Outcome.started (ι := ι) s) := hrelease
    obtain rfl := Outcome.started.inj (Except.ok.inj hempty)
    have haccepts := env.accepts_of_main_debug hs
    simp [maxSessionCount] at haccepts

end Agree

/-- Two sessions are added, and the first is released and added again. -/
def reconnects : List (ServiceCall ℕ) :=
  [.addSession 0, .addSession 1, .releaseSession 0, .addSession 0]

/-- A message of zeros and a history that leaves no session released come out the same. -/
theorem builds_agree_zeros :
    (Input.message (ι := ℕ) [0, 0, 0] 2).run rawBytes .release = .ok (.bytes [7, 0, 2, 0, 0, 0, 0]) ∧
      (Input.history reconnects).run rawBytes .release = .ok (.sessions {0, 1}) := by
  have hmessage : (Input.message (ι := ℕ) [0, 0, 0] 2).run rawBytes .debug =
      .ok (.bytes [7, 0, 2, 0, 0, 0, 0]) := rfl
  have hhistory : (Input.history reconnects).run rawBytes .debug = .ok (.sessions {0, 1}) := rfl
  have hgone : ∀ i, ¬ Gone i reconnects := by
    intro i
    have hreconnects : reconnects = [] ++ [.addSession 0] ++ [.addSession 1] ++
      [.releaseSession 0] ++ [.addSession 0] := rfl
    have hempty : ¬ Gone i ([] : List (ServiceCall ℕ)) := by
      rintro ⟨before, after, heq, -⟩
      simp at heq
    rw [hreconnects]
    simp only [gone_append_iff, hempty]
    simp
  exact ⟨(builds_agree_iff rawBytes hmessage).2 (by simp [Input.HasNoEffect, rawBytes]),
    (builds_agree_iff rawBytes hhistory).2 hgone⟩

/-- The message 1 goes out as a 0 from the Release build. -/
theorem not_builds_agree :
    ¬ ∀ (input : Input (List UInt8) ℕ) (outcome : Outcome ℕ),
      input.run rawBytes .debug = .ok outcome → input.run rawBytes .release = .ok outcome := by
  intro hall
  have hrelease := hall (.message [1] 2) (.bytes [5, 0, 2, 0, 1]) rfl
  cases hrelease

end Zelda.ServerCore
