import Zelda.ServerCore.RecvCycle
import Zelda.ServerCore.SendQueue

/-!
# From `Send` to `OnRecvPacket`

A session at one end of a connection sends messages, any number of threads at a time; the session at
the other end receives what the accepted `WSASend` have put on the wire, in pieces of any length
that its buffer has room for. The stream in between loses nothing and keeps the order.

The receiver holds what splitting the bytes that have arrived leaves (`Link.Sound`), so
`OnRecvPacket` is called with the packets that were sent, in the order of the `Send`, none left out
or doubled: `delivery_of_run`.
-/

namespace Zelda.ServerCore

variable {T M : Type*}

/-- The packets that messages are sent in. -/
structure Wire (M : Type*) where
  bytes : M → List UInt8
  isPacket : ∀ m, IsPacket (bytes m)

/-- The session that sends, with each buffer named by the message in it, and the one that
receives. -/
structure Link (T M : Type*) where
  session : Session T M := {}
  /-- The bytes that have arrived. -/
  arrived : List UInt8 := []
  buffer : RecvBuffer := .new sessionBufferSize
  /-- The packets that `OnRecvPacket` was called with. -/
  delivered : List (List UInt8) := []

/-- What happens at one of the two ends. -/
inductive LinkEvent (T M : Type*)
  | session (e : SessionEvent T M)
  | receive (chunk : List UInt8)

/-- If the event calls `WSASend`, the call is accepted. -/
def LinkEvent.accepted : LinkEvent T M → Bool
  | .session e => e.accepted
  | .receive _ => true

namespace Link

variable (W : Wire M) (L : Link T M)

/-- The packets in the batches of the accepted `WSASend`. -/
def issued : List (List UInt8) := L.session.issued.flatten.map W.bytes

/-- The bytes that are on the wire or have been. -/
def wire : List UInt8 := (L.issued W).flatten

/-- The chunk is next on the wire, and the buffer has room for it. -/
structure Arrives (chunk : List UInt8) : Prop where
  ne_nil : chunk ≠ []
  fits : (chunk.length : ℤ) ≤ L.buffer.freeSize
  next : L.arrived ++ chunk <+: L.wire W

/-- The steps of a link. -/
inductive Step [DecidableEq T] : Link T M → LinkEvent T M → Link T M → Prop
  | session {L : Link T M} {e : SessionEvent T M} {s' : Session T M}
      (hs : SessionStep L.session e s') : Step L (.session e) { L with session := s' }
  | receive {L : Link T M} {chunk : List UInt8} {b : RecvBuffer} {packets : List (List UInt8)}
      (harrives : L.Arrives W chunk)
      (hok : processRecv (L.buffer.received chunk) chunk.length = .registered b packets) :
      Step L (.receive chunk)
        { L with
          arrived := L.arrived ++ chunk
          buffer := b
          delivered := L.delivered ++ packets }

/-- The sessions of a link: the receiver has cut the bytes that have arrived into packets, and has
room for more. -/
structure Sound : Prop where
  token : SendToken L.session
  order : InOrder L.session
  issued : Issued L.session
  ofSession : L.buffer.OfSession
  room : (sessionBufferSize : ℤ) ≤ L.buffer.freeSize
  arrived : L.arrived <+: L.wire W
  delivered : L.delivered = (Framing.split packetFormat L.arrived).1
  pending : L.buffer.pending = (Framing.split packetFormat L.arrived).2

end Link

variable {W : Wire M} {L L' : Link T M} {chunk : List UInt8} {b b' : RecvBuffer}
  {packets : List (List UInt8)}

/-! ## The receiver -/

/-- A receive leaves the buffer with room for another one. -/
theorem RecvBuffer.OfSession.processRecv (h : b.OfSession)
    (hfit : (chunk.length : ℤ) ≤ b.freeSize)
    (hok : processRecv (b.received chunk) chunk.length = .registered b' packets) :
    b'.OfSession ∧ (sessionBufferSize : ℤ) ≤ b'.freeSize := by
  unfold ServerCore.processRecv at hok
  split at hok
  · cases hok
  · split at hok
    · cases hok
    · rename_i b₁ hwrite
      have h₁ := (h.received hfit).onWrite hwrite
      split at hok
      · cases hok
      · rename_i r hrecv
        obtain ⟨hin, b₂, hread, h₂, hshort⟩ := h₁.onRead hrecv
        rw [if_neg hin, hread] at hok
        cases hok
        exact h₂.clean hshort

theorem Link.isPacket_of_mem_issued {p : List UInt8} (hp : p ∈ L.issued W) : IsPacket p := by
  obtain ⟨m, -, rfl⟩ := List.mem_map.1 hp
  exact W.isPacket m

theorem Link.isFrame_of_mem_issued {p : List UInt8} (hp : p ∈ L.issued W) :
    Framing.IsFrame packetFormat p :=
  isFrame_of_isPacket (isPacket_of_mem_issued hp)

/-- Whatever arrives is received, and is split behind what was unread. -/
theorem Link.Sound.receive (h : L.Sound W) (harrives : L.Arrives W chunk) :
    ∃ b, processRecv (L.buffer.received chunk) chunk.length =
        .registered b (Framing.split packetFormat (L.buffer.pending ++ chunk)).1 ∧
      b.pending = (Framing.split packetFormat (L.buffer.pending ++ chunk)).2 := by
  have hcap : L.buffer.capacity < 2 ^ 31 := by
    rw [h.ofSession.capacity_eq, sessionBufferSize]
    decide
  have h0 : NoZeroSize (L.arrived ++ chunk) := by
    obtain ⟨rest, hrest⟩ := harrives.next
    have hwire : NoZeroSize (L.wire W) := noZeroSize_flatten fun p hp => isPacket_of_mem_issued hp
    rw [← hrest] at hwire
    exact hwire.of_append
  have hdrop := h0.drop ((boundary_split L.arrived).append chunk)
  rw [List.drop_append_of_le_length (boundary_split L.arrived).le_length, drop_flatten_split,
    ← h.pending] at hdrop
  obtain ⟨b, hok, -, hpending, -⟩ :=
    processRecv_refines h.ofSession.toWellFormed hcap harrives.ne_nil harrives.fits hdrop
  exact ⟨b, hok, hpending⟩

/-! ## The sender -/

/-- Nothing that has been put on the wire is taken back. -/
theorem issued_step_prefix [DecidableEq T] {s s' : Session T M} {e : SessionEvent T M}
    (hs : SessionStep s e s') :
    s.issued <+: s'.issued := by
  cases hs with
  | @wsaSend t result ht =>
    cases result with
    | accepted => exact List.prefix_append _ _
    | failed errorCode => exact List.prefix_rfl
  | @wsaRecv t result ht => cases result <;> exact List.prefix_rfl
  | _ => exact List.prefix_rfl

/-- What is on the wire has been sent, in this order. -/
theorem issued_prefix_sent {s : Session T M} (horder : InOrder s) (hissued : Issued s) :
    s.issued.flatten <+: s.sent := by
  have hhanded : s.handed.flatten <+: s.sent := ⟨s.sendQueue, horder.sent⟩
  by_cases hcalling : ∃ t, s.pc t = .wsaSend
  · obtain ⟨t, ht⟩ := hcalling
    rw [hissued.before ht, List.flatten_append] at hhanded
    exact (List.prefix_append _ _).trans hhanded
  · rwa [← hissued.after fun t ht => hcalling ⟨t, ht⟩]

/-! ## Runs of a link -/

namespace Link

theorem Sound.step [DecidableEq T] {e : LinkEvent T M} (h : L.Sound W) (he : e.accepted)
    (hs : Step W L e L') :
    L'.Sound W := by
  cases hs with
  | @session _ s' hs =>
    have hwire : L.wire W <+: Link.wire W { L with session := s' } := by
      obtain ⟨rest, hrest⟩ := issued_step_prefix hs
      refine ⟨(rest.flatten.map W.bytes).flatten, ?_⟩
      rw [wire, wire, Link.issued, Link.issued, ← hrest, List.flatten_append, List.map_append,
        List.flatten_append]
    exact { h with
      token := sendToken_step hs h.token
      order := inOrder_step hs h.token h.order
      issued := issued_step hs he h.token h.issued
      arrived := h.arrived.trans hwire }
  | @receive chunk b packets harrives hok =>
    obtain ⟨b₁, hok₁, hpending⟩ := h.receive harrives
    rw [hok] at hok₁
    cases hok₁
    obtain ⟨hofSession, hroom⟩ := h.ofSession.processRecv harrives.fits hok
    have hsplit := Framing.split_append packetFormat L.arrived chunk
    rw [← h.delivered, ← h.pending] at hsplit
    exact { h with
      ofSession := hofSession
      room := hroom
      arrived := harrives.next
      delivered := (congrArg Prod.fst hsplit).symm
      pending := hpending.trans (congrArg Prod.snd hsplit).symm }

theorem sound_start : Sound W ({} : Link T M) where
  token := sendToken_init
  order := ⟨fun hne => absurd rfl hne, rfl⟩
  issued := .of_nobody rfl (by simp)
  ofSession := RecvBuffer.ofSession_new
  room := by
    show (sessionBufferSize : ℤ) ≤ (RecvBuffer.new sessionBufferSize).freeSize
    decide
  arrived := List.nil_prefix
  delivered := by rw [Framing.split_of_none _ (Framing.first_nil _)]
  pending := by
    rw [Framing.split_of_none _ (Framing.first_nil _)]
    exact RecvBuffer.pending_new _

theorem sound_of_run [DecidableEq T]
    (h : Reaches (Step W) (fun _ e => e.accepted) ({} : Link T M) L) :
    L.Sound W := by
  refine h.invariant (I := fun L => L.Sound W) (fun _ _ _ hI he hs => hI.step he hs) sound_start

/-- As long as bytes are on their way, some of them can be received. -/
theorem Sound.exists_arrives (h : L.Sound W) (hne : L.arrived ≠ L.wire W) :
    ∃ chunk, L.Arrives W chunk := by
  obtain ⟨rest, hrest⟩ := h.arrived
  cases rest with
  | nil => exact absurd (by rw [← hrest, List.append_nil]) hne
  | cons byte rest =>
    refine ⟨[byte], List.cons_ne_nil _ _, ?_, ⟨rest, ?_⟩⟩
    · have hroom := h.room
      have hpos : (1 : ℤ) ≤ sessionBufferSize := by decide
      rw [List.length_singleton]
      omega
    · rw [← hrest, List.append_assoc, List.singleton_append]

/-- What the session does, the link does. -/
theorem reaches_session [DecidableEq T] {s : Session T M}
    (h : Reaches SessionStep (fun _ e => e.accepted) L.session s) :
    Reaches (Step W) (fun _ e => e.accepted) L { L with session := s } := by
  induction h with
  | refl => exact .refl _
  | tail _ hstep ih =>
    obtain ⟨e, he, hstep⟩ := hstep
    exact ih.tail (e := .session e) he (.session hstep)

/-- The receiver can catch up with the wire. -/
theorem Sound.exists_caught_up [DecidableEq T] (h : L.Sound W) :
    ∃ L', Reaches (Step W) (fun _ e => e.accepted) L L' ∧ L'.session = L.session ∧
      L'.arrived = L'.wire W := by
  obtain ⟨rest, hrest⟩ := h.arrived
  induction hn : rest.length using Nat.strong_induction_on generalizing L rest with
  | _ n ih =>
    by_cases hall : L.arrived = L.wire W
    · exact ⟨L, .refl _, rfl, hall⟩
    · obtain ⟨chunk, harrives⟩ := h.exists_arrives hall
      obtain ⟨b, hok, -⟩ := h.receive harrives
      have hstep := Step.receive harrives hok
      have hsound := h.step (e := .receive chunk) rfl hstep
      obtain ⟨rest', hrest'⟩ := hsound.arrived
      have hlen := congrArg List.length (hrest'.trans hrest.symm)
      have hpos := List.length_pos_iff.2 harrives.ne_nil
      simp only [List.length_append] at hlen
      obtain ⟨L', hrun, hsession, hall'⟩ := ih rest'.length (by omega) hsound rest' hrest' rfl
      exact ⟨L', .head ⟨_, rfl, hstep⟩ hrun, hsession, hall'⟩

theorem Sound.delivered_prefix (h : L.Sound W) :
    L.delivered <+: L.session.sent.map W.bytes := by
  rw [h.delivered]
  refine (Framing.split_prefix packetFormat (fun p hp => isFrame_of_mem_issued hp)
    h.arrived).trans ?_
  exact (issued_prefix_sent h.order h.issued).map _

theorem Sound.delivered_eq (h : L.Sound W) (hall : L.arrived = L.wire W) :
    L.delivered = L.issued W := by
  rw [h.delivered, hall, wire,
    Framing.split_flatten_eq packetFormat fun p hp => isFrame_of_mem_issued hp]

/-- **A link delivers what was sent**, in every run in which the `WSASend` are accepted:
`OnRecvPacket` has been called with the packets of the first `Send`, in order; whatever arrives is
received and leaves the session connected, and as long as not everything has arrived something can;
when it has, the packets of all the `WSASend` have been delivered. -/
theorem delivery_of_run [DecidableEq T]
    (h : Reaches (Step W) (fun _ e => e.accepted) ({} : Link T M) L) :
    L.delivered <+: L.session.sent.map W.bytes ∧
      (∀ chunk, L.Arrives W chunk → ∃ b packets,
        processRecv (L.buffer.received chunk) chunk.length = .registered b packets) ∧
      (L.arrived ≠ L.wire W → ∃ chunk, L.Arrives W chunk) ∧
      (L.arrived = L.wire W → L.delivered = L.issued W) := by
  have hsound := sound_of_run h
  refine ⟨hsound.delivered_prefix, fun chunk harrives => ?_, hsound.exists_arrives,
    hsound.delivered_eq⟩
  obtain ⟨b, hok, -⟩ := hsound.receive harrives
  exact ⟨b, _, hok⟩

/-- A packet that is a header alone. -/
def headerWire : Wire Unit where
  bytes _ := [4, 0, 10, 0]
  isPacket _ := ⟨by decide, by decide⟩

/-- Thread 1 sends the header, thread 2 sends it again, and both go out in one `WSASend`. -/
theorem delivery_of_run_headers : ∃ L : Link ℕ Unit, L.session.sent = [(), ()] ∧
    L.delivered = [[4, 0, 10, 0], [4, 0, 10, 0]] := by
  have hsession := reaches_of_follows (C := fun _ e => e.accepted) (s := ({} : Session ℕ Unit))
    [.processConnect 0, .send 1 (), .send 2 (), .registerSend 1, .drain 1, .wsaSend 1 .accepted]
    (by decide)
  have hrun := reaches_session (W := headerWire) (L := {}) hsession
  obtain ⟨L, hlater, hkept, harrived⟩ := (sound_of_run hrun).exists_caught_up
  have hall := (delivery_of_run (hrun.trans hlater)).2.2.2 harrived
  rw [issued, hkept] at hall
  exact ⟨L, by rw [hkept]; rfl, hall⟩

end Link

end Zelda.ServerCore
