import Zelda.Foundations.Runs
import Zelda.ServerCore.RecvBuffer

/-!
# The cycle of receives

A session that is connected calls `RegisterRecv`, waits for its `WSARecv`, goes through
`ProcessRecv` and calls `RegisterRecv` again. A step is one operation on the receive buffer, so what
every step keeps holds between any two of them. Meanwhile any thread may disconnect the session.

What `OnRecv` leaves unread is shorter than a packet, hence shorter than `BUFFER_SIZE`
(`length_split_lt`). As the buffer is ten times as long, `Clean` makes room whenever room is short,
and has the unread bytes far from where it puts them.

Main result: `recvBuffer_of_run`.
-/

namespace Zelda.ServerCore

/-! ## The steps -/

/-- Where the session stands in its cycle. -/
inductive RecvPc
  /-- No receive is under way. -/
  | idle
  /-- Calls `RegisterRecv`. -/
  | registerRecv
  /-- `WSARecv` is under way. -/
  | wsaRecv
  /-- In `ProcessRecv`, before `OnWrite`. -/
  | processRecv (numOfBytes : ℕ)
  /-- In `ProcessRecv`, before `OnRecv`. -/
  | onRecv
  /-- In `ProcessRecv`, before `Clean`. -/
  | clean
  deriving DecidableEq, Repr

/-- A session, as far as it receives. -/
structure Receiver where
  connected : Bool := false
  pc : RecvPc := .idle
  recvBuffer : RecvBuffer := .new sessionBufferSize

/-- What can happen to it. -/
inductive RecvEvent
  | processConnect
  | disconnect
  | registerRecv (accepted : Bool)
  | complete (chunk : List UInt8)
  | processRecv

variable {s s' : Receiver} {b b' : RecvBuffer} {l : List UInt8} {n : ℕ} {r : OnRecvState}

/-- The steps of a session. A completed receive has written at most `FreeSize()` bytes. -/
inductive RecvStep : Receiver → RecvEvent → Receiver → Prop
  | processConnect {s : Receiver} (hpc : s.pc = .idle) :
      RecvStep s .processConnect { s with connected := true, pc := .registerRecv }
  /-- `Disconnect`, in a handler or in another thread. -/
  | disconnect {s : Receiver} : RecvStep s .disconnect { s with connected := false }
  /-- `RegisterRecv`, with whether `WSARecv` is accepted. -/
  | registerRecv {s : Receiver} {accepted : Bool} (hpc : s.pc = .registerRecv) :
      RecvStep s (.registerRecv accepted)
        { s with pc := if s.connected && accepted then .wsaRecv else .idle }
  | complete {s : Receiver} {chunk : List UInt8} (hpc : s.pc = .wsaRecv)
      (hfit : (chunk.length : ℤ) ≤ s.recvBuffer.freeSize) :
      RecvStep s (.complete chunk)
        { s with pc := .processRecv chunk.length, recvBuffer := s.recvBuffer.received chunk }
  /-- `Disconnect(L"Recv 0")` -/
  | recv0 {s : Receiver} (hpc : s.pc = .processRecv 0) :
      RecvStep s .processRecv { s with connected := false, pc := .idle }
  | onWrite {s : Receiver} {n : ℕ} {b : RecvBuffer} (hpc : s.pc = .processRecv n) (hn : n ≠ 0)
      (hok : s.recvBuffer.onWrite n = some b) :
      RecvStep s .processRecv { s with pc := .onRecv, recvBuffer := b }
  /-- `Disconnect(L"OnWrite Overflow")` -/
  | onWriteOverflow {s : Receiver} {n : ℕ} (hpc : s.pc = .processRecv n) (hn : n ≠ 0)
      (hno : s.recvBuffer.onWrite n = none) :
      RecvStep s .processRecv { s with connected := false, pc := .idle }
  /-- `OnRecv` returns, and `OnRead` succeeds. -/
  | onRead {s : Receiver} {r : OnRecvState} {b : RecvBuffer} (hpc : s.pc = .onRecv)
      (hrecv : onRecv s.recvBuffer.pending = some r)
      (hin : ¬ (r.processLen < 0 ∨ s.recvBuffer.dataSize < r.processLen))
      (hok : s.recvBuffer.onRead r.processLen = some b) :
      RecvStep s .processRecv { s with pc := .clean, recvBuffer := b }
  /-- `Disconnect(L"OnRead Overflow")` -/
  | onReadOverflow {s : Receiver} {r : OnRecvState} (hpc : s.pc = .onRecv)
      (hrecv : onRecv s.recvBuffer.pending = some r)
      (hno : (r.processLen < 0 ∨ s.recvBuffer.dataSize < r.processLen) ∨
        s.recvBuffer.onRead r.processLen = none) :
      RecvStep s .processRecv { s with connected := false, pc := .idle }
  | clean {s : Receiver} (hpc : s.pc = .clean) :
      RecvStep s .processRecv { s with pc := .registerRecv, recvBuffer := s.recvBuffer.clean }

/-- The states of a session that can be reached. -/
abbrev RecvReachable : Receiver → Prop := Reaches RecvStep (fun _ _ => True) {}

/-- A call of `ProcessRecv` that comes to the next `RegisterRecv` is three steps. -/
theorem reaches_of_processRecv {connected : Bool} {packets : List (List UInt8)}
    (h : processRecv b n = .registered b' packets) :
    Reaches RecvStep (fun _ _ => True) ⟨connected, .processRecv n, b⟩
      ⟨connected, .registerRecv, b'⟩ := by
  unfold processRecv at h
  split at h
  · cases h
  · rename_i hn
    split at h
    · cases h
    · rename_i b₁ hwrite
      split at h
      · cases h
      · rename_i r hrecv
        split at h
        · cases h
        · rename_i hin
          split at h
          · cases h
          · rename_i b₂ hread
            obtain ⟨rfl, -⟩ := RecvOutcome.registered.inj h
            have hwritten : Reaches RecvStep (fun _ _ => True) ⟨connected, .processRecv n, b⟩
                ⟨connected, .onRecv, b₁⟩ :=
              .single trivial (.onWrite rfl (by exact_mod_cast hn) hwrite)
            have hdone : Reaches RecvStep (fun _ _ => True) ⟨connected, .processRecv n, b⟩
                ⟨connected, .clean, b₂⟩ :=
              hwritten.tail trivial (.onRead rfl hrecv hin hread)
            exact hdone.tail trivial (.clean rfl)

/-! ## What is left unread -/

/-- What the framing loop leaves is shorter than a packet. -/
theorem length_split_lt (h0 : NoZeroSize l) :
    (Framing.split packetFormat l).2.length < sessionBufferSize := by
  have hfirst := Framing.first_split_snd packetFormat l
  have hrest := h0 _ (boundary_split l)
  rw [drop_flatten_split] at hrest
  set rest := (Framing.split packetFormat l).2
  cases ha : packetFormat.announced rest with
  | none =>
    -- not even a header is there
    have hlen : ¬ sizeofPacketHeader ≤ rest.length := by
      intro hle
      rw [announced_eq_some.2 ⟨hle, rfl⟩] at ha
      cases ha
    simp only [sizeofPacketHeader] at hlen
    rw [sessionBufferSize]
    omega
  | some n =>
    have hpos : n ≠ 0 := by
      rintro rfl
      exact hrest ha
    have hlt : rest.length < n := by
      by_contra hle
      rw [packetFormat.first_eq_some.2 ⟨ha, by omega, by omega⟩] at hfirst
      cases hfirst
    obtain ⟨-, rfl⟩ := announced_eq_some.1 ha
    have hsize := (PacketHeader.read rest).size.toNat_lt
    rw [sessionBufferSize]
    omega

/-! ## What every step keeps -/

namespace RecvBuffer

/-- A buffer of a session, with its cursors in order. -/
structure OfSession (b : RecvBuffer) : Prop extends b.WellFormed where
  capacity_eq : b.capacity = 10 * sessionBufferSize
  bufferSize_eq : b.bufferSize = sessionBufferSize

/-- `Clean` copies the unread bytes to the front. -/
def Compacts (b : RecvBuffer) : Prop := b.dataSize ≠ 0 ∧ b.freeSize < b.bufferSize

/-- The bytes that `memcpy` reads in `Clean` and those it writes do not overlap. -/
def Apart (b : RecvBuffer) : Prop :=
  ∀ i : ℤ, b.readPos ≤ i → i < b.readPos + b.dataSize → ¬ (0 ≤ i ∧ i < b.dataSize)

theorem ofSession_new : (RecvBuffer.new sessionBufferSize).OfSession where
  toWellFormed := wellFormed_new _
  capacity_eq := by decide
  bufferSize_eq := rfl

theorem OfSession.of_eq (h : b.OfSession) (hb' : b'.WellFormed) (hcap : b'.capacity = b.capacity)
    (hsize : b'.bufferSize = b.bufferSize) : b'.OfSession :=
  ⟨hb', hcap.trans h.capacity_eq, hsize.trans h.bufferSize_eq⟩

theorem OfSession.received (h : b.OfSession) {chunk : List UInt8}
    (hfit : (chunk.length : ℤ) ≤ b.freeSize) : (b.received chunk).OfSession := by
  have hlen := h.length_eq
  have hroom : b.writePos.toNat + chunk.length ≤ b.buffer.length := by
    have hread := h.readPos_nonneg
    have hle := h.readPos_le
    unfold freeSize at hfit
    omega
  have hkeep : ((b.received chunk).buffer.length : ℤ) = b.buffer.length :=
    congrArg Nat.cast (Memory.length_overwrite hroom)
  exact h.of_eq ⟨h.readPos_nonneg, h.readPos_le, h.writePos_le, hkeep.trans hlen⟩ rfl rfl

theorem onWrite_eq_some (h : b.onWrite n = some b') :
    (n : ℤ) ≤ b.freeSize ∧ b' = { b with writePos := b.writePos + n } := by
  unfold onWrite at h
  split at h
  · cases h
  · rename_i hfit
    exact ⟨Int.not_lt.1 hfit, (Option.some.inj h).symm⟩

theorem OfSession.onWrite (h : b.OfSession) (hok : b.onWrite n = some b') : b'.OfSession := by
  obtain ⟨hfit, rfl⟩ := onWrite_eq_some hok
  have hle := h.readPos_le
  unfold freeSize at hfit
  refine h.of_eq ⟨h.readPos_nonneg, ?_, ?_, h.length_eq⟩ rfl rfl
  · simp only
    omega
  · simp only
    omega

/-- When `OnRecv` returns, it has processed the packets that are there. -/
theorem OfSession.processLen_eq (h : b.OfSession) (hrecv : ServerCore.onRecv b.pending = some r) :
    NoZeroSize b.pending ∧
      r.processLen = ((Framing.split packetFormat b.pending).1.flatten.length : ℕ) := by
  have hcap := h.capacity_eq
  have hle := h.length_pending_le
  have hfree : 0 ≤ b.freeSize := by
    have hwrite := h.writePos_le
    unfold freeSize
    omega
  have hlen : b.pending.length < 2 ^ 31 := by
    rw [sessionBufferSize] at hcap
    omega
  have h0 : NoZeroSize b.pending := by
    by_contra hzero
    rw [(onRecv_eq_none_iff hlen).2 hzero] at hrecv
    cases hrecv
  rw [onRecv_eq_some hlen h0] at hrecv
  exact ⟨h0, congrArg OnRecvState.processLen (Option.some.inj hrecv).symm⟩

/-- So `OnRead` succeeds, and less than `BUFFER_SIZE` bytes are left unread. -/
theorem OfSession.onRead (h : b.OfSession) (hrecv : ServerCore.onRecv b.pending = some r) :
    ¬ (r.processLen < 0 ∨ b.dataSize < r.processLen) ∧
      ∃ b', b.onRead r.processLen = some b' ∧ b'.OfSession ∧ b'.dataSize < sessionBufferSize := by
  obtain ⟨h0, hlen⟩ := h.processLen_eq hrecv
  have hle := (boundary_split b.pending).le_length
  have hpend := h.length_pending
  obtain ⟨b', hread, hb', hpend', hcap⟩ := h.onRead_eq_some hle
  have hsize : b'.bufferSize = b.bufferSize := by
    unfold RecvBuffer.onRead at hread
    split at hread
    · cases hread
    · rw [← Option.some.inj hread]
  have hshort := length_split_lt h0
  rw [hlen]
  refine ⟨by omega, b', hread, h.of_eq hb' hcap hsize, ?_⟩
  rw [← hb'.length_pending, hpend', drop_flatten_split]
  exact_mod_cast hshort

/-- `Clean` leaves room for `BUFFER_SIZE` bytes. -/
theorem OfSession.clean (h : b.OfSession) (hshort : b.dataSize < sessionBufferSize) :
    b.clean.OfSession ∧ (sessionBufferSize : ℤ) ≤ b.clean.freeSize := by
  obtain ⟨hclean, -, hcap⟩ := h.toWellFormed.clean
  have hten := h.capacity_eq
  have hsize := h.bufferSize_eq
  have hwrite := h.writePos_le
  refine ⟨h.of_eq hclean hcap ?_, ?_⟩
  · unfold RecvBuffer.clean
    split_ifs <;> rfl
  · unfold RecvBuffer.clean
    split_ifs with hempty hfree
    · simp only [freeSize]
      omega
    · simp only [freeSize]
      omega
    · omega

/-- Where `Clean` compacts, the cursors have gone far beyond what is unread. -/
theorem OfSession.apart (h : b.OfSession) (hshort : b.dataSize < sessionBufferSize)
    (hcompacts : b.Compacts) : b.Apart := by
  have hten := h.capacity_eq
  have hsize := h.bufferSize_eq
  obtain ⟨-, hfree⟩ := hcompacts
  have hfar : b.dataSize ≤ b.readPos := by
    unfold freeSize at hfree
    unfold dataSize at hshort ⊢
    omega
  rintro i hlow - ⟨-, hhigh⟩
  omega

end RecvBuffer

/-- Between two receives there is room, and what is unread is short. -/
def RecvPc.Keeps (b : RecvBuffer) : RecvPc → Prop
  | .idle | .registerRecv | .wsaRecv => (sessionBufferSize : ℤ) ≤ b.freeSize
  | .processRecv n => (sessionBufferSize : ℤ) ≤ b.freeSize ∧ (n : ℤ) ≤ b.freeSize
  | .onRecv => True
  | .clean => b.dataSize < sessionBufferSize

/-- The invariant of the cycle. -/
structure Receiver.Sound (s : Receiver) : Prop where
  ofSession : s.recvBuffer.OfSession
  keeps : s.pc.Keeps s.recvBuffer

theorem sound_start : ({} : Receiver).Sound where
  ofSession := RecvBuffer.ofSession_new
  keeps := by
    show (sessionBufferSize : ℤ) ≤ (RecvBuffer.new sessionBufferSize).freeSize
    decide

/-- **Every operation keeps the invariant.** -/
theorem Receiver.Sound.step {e : RecvEvent} (h : s.Sound) (hstep : RecvStep s e s') :
    s'.Sound := by
  obtain ⟨hb, hkeeps⟩ := h
  cases hstep with
  | processConnect hpc =>
    rw [hpc] at hkeeps
    exact ⟨hb, hkeeps⟩
  | disconnect => exact ⟨hb, hkeeps⟩
  | registerRecv hpc =>
    rw [hpc] at hkeeps
    refine ⟨hb, ?_⟩
    simp only
    split <;> exact hkeeps
  | complete hpc hfit =>
    rw [hpc] at hkeeps
    exact ⟨hb.received hfit, hkeeps, hfit⟩
  | recv0 hpc =>
    rw [hpc] at hkeeps
    exact ⟨hb, hkeeps.1⟩
  | onWrite hpc hn hok => exact ⟨hb.onWrite hok, trivial⟩
  | onWriteOverflow hpc hn hno =>
    rw [hpc] at hkeeps
    rw [RecvBuffer.onWrite, if_neg (Int.not_lt.2 hkeeps.2)] at hno
    cases hno
  | onRead hpc hrecv hin hok =>
    obtain ⟨-, b', hread, hb', hshort⟩ := hb.onRead hrecv
    obtain rfl := Option.some.inj (hread.symm.trans hok)
    exact ⟨hb', hshort⟩
  | onReadOverflow hpc hrecv hno =>
    obtain ⟨hin, b', hread, -⟩ := hb.onRead hrecv
    rcases hno with hout | hno
    · exact absurd hout hin
    · cases hread.symm.trans hno
  | clean hpc =>
    rw [hpc] at hkeeps
    obtain ⟨hb', hroom⟩ := hb.clean hkeeps
    exact ⟨hb', hroom⟩

/-! ## Every run -/

/-- The cursors are in order, and no operation on the buffer can go wrong. -/
structure Receiver.Safe (s : Receiver) : Prop where
  readPos_nonneg : 0 ≤ s.recvBuffer.readPos
  readPos_le : s.recvBuffer.readPos ≤ s.recvBuffer.writePos
  writePos_le : s.recvBuffer.writePos ≤ s.recvBuffer.capacity
  registerRecv : s.pc = .registerRecv → s.connected = true →
    (sessionBufferSize : ℤ) ≤ s.recvBuffer.freeSize
  wsaRecv : s.pc = .wsaRecv → 0 < s.recvBuffer.freeSize
  onWrite : ∀ n, s.pc = .processRecv n → (s.recvBuffer.onWrite n).isSome = true
  clean : s.pc = .clean → s.recvBuffer.Compacts → s.recvBuffer.Apart

theorem Receiver.Sound.safe (h : s.Sound) : s.Safe := by
  obtain ⟨hb, hkeeps⟩ := h
  refine ⟨hb.readPos_nonneg, hb.readPos_le, hb.writePos_le, fun hpc _ => ?_, fun hpc => ?_,
    fun n hpc => ?_, fun hpc hcompacts => ?_⟩ <;> rw [hpc] at hkeeps
  · exact hkeeps
  · have hpos : (0 : ℤ) < sessionBufferSize := by decide
    exact hpos.trans_le hkeeps
  · rw [RecvBuffer.onWrite, if_neg (Int.not_lt.2 hkeeps.2)]
    rfl
  · exact hb.apart hkeeps hcompacts

/-- **The receive buffer is safe in every run**, whatever bytes arrive in whatever pieces. -/
theorem recvBuffer_of_run (s : Receiver) (h : RecvReachable s) : s.Safe := by
  have hsound : s.Sound :=
    h.invariant (I := Receiver.Sound) (fun _ _ _ hs _ hstep => hs.step hstep) sound_start
  exact hsound.safe

/-- A session that has received a packet and the first byte of the next one. -/
theorem recvBuffer_of_run_five_bytes :
    ∃ s : Receiver, s.pc = .registerRecv ∧ s.recvBuffer.pending = [5] ∧ s.Safe := by
  have hpend := RecvBuffer.pending_new sessionBufferSize
  have h0 : NoZeroSize ((RecvBuffer.new sessionBufferSize).pending ++ [4, 0, 10, 0, 5]) := by
    rw [hpend, List.nil_append]
    by_contra hzero
    exact absurd ((onRecv_eq_none_iff (by decide)).2 hzero) (by decide)
  have hfit : (([4, 0, 10, 0, 5] : List UInt8).length : ℤ) ≤
      (RecvBuffer.new sessionBufferSize).freeSize := by decide
  obtain ⟨b, hproc, -, hb, -⟩ := processRecv_refines (RecvBuffer.wellFormed_new _) (by decide)
    (by decide) hfit h0
  have hposted : RecvReachable ⟨true, .wsaRecv, .new sessionBufferSize⟩ :=
    (Reaches.single trivial (.processConnect rfl)).tail (e := .registerRecv true) trivial
      (.registerRecv rfl)
  have hreach : RecvReachable ⟨true, .registerRecv, b⟩ :=
    (hposted.tail trivial (.complete rfl hfit)).trans (reaches_of_processRecv hproc)
  refine ⟨⟨true, .registerRecv, b⟩, rfl, ?_, recvBuffer_of_run _ hreach⟩
  have hframe : ∀ f ∈ [[4, 0, 10, 0]], Framing.IsFrame packetFormat f := by
    intro f hf
    obtain rfl := List.mem_singleton.1 hf
    exact isFrame_of_isPacket ⟨by decide, by decide⟩
  have hsplit := Framing.split_flatten packetFormat hframe [5]
  rw [Framing.split_of_none packetFormat (by decide : packetFormat.first [5] = none)] at hsplit
  rw [hb, hpend]
  exact congrArg Prod.snd hsplit

end Zelda.ServerCore
