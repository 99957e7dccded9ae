import Mathlib.Data.List.GetD
import Zelda.Foundations.Loop
import Zelda.Foundations.Framing
import Zelda.Foundations.Word

/-!
# The packet framing loop

`PacketSession::OnRecv` cuts the received bytes `[size(2)][id(2)][data....]…` into packets. The
loop advances by the size field of each header, which the peer chooses. It leaves with what the
abstract splitter of `Foundations/Framing` gives (`returns_onRecv`) as long as no header it comes
to announces the size `0`; at such a header it goes round without advancing, for ever
(`not_terminates_of_zero_size`).
-/

namespace Zelda.ServerCore

open Word

/-- `PacketHeader`: the size of the whole packet, and the protocol id. -/
structure PacketHeader where
  size : UInt16
  id : UInt16
  deriving DecidableEq, Repr

/-- `sizeof(PacketHeader)` -/
def sizeofPacketHeader : ℕ := 4

/-- `*(reinterpret_cast<PacketHeader*>(p))`, with `p` pointing at the given bytes. -/
def PacketHeader.read (p : List UInt8) : PacketHeader where
  size := word16 (p.getD 0 0) (p.getD 1 0)
  id := word16 (p.getD 2 0) (p.getD 3 0)

/-- The variables of `OnRecv`, and the slices handed to `OnRecvPacket` so far. -/
structure OnRecvState where
  processLen : ℤ
  packets : List (List UInt8)
  deriving DecidableEq, Repr

/-- `OnRecv` starts with `processLen = 0`. -/
def OnRecvState.start : OnRecvState := ⟨0, []⟩

/-- One pass of the loop of `PacketSession::OnRecv` over the `len` bytes of `buffer`. -/
def onRecvBody (buffer : List UInt8) (s : OnRecvState) : OnRecvState ⊕ OnRecvState :=
  let len : ℤ := buffer.length
  let dataSize := len - s.processLen
  if sizeT dataSize < sizeofPacketHeader then
    .inr s
  else
    let header := PacketHeader.read (buffer.drop s.processLen.toNat)
    if dataSize < header.size.toNat then
      .inr s
    else
      .inl ⟨s.processLen + header.size.toNat,
        s.packets ++ [(buffer.drop s.processLen.toNat).take header.size.toNat]⟩

/-- `PacketSession::OnRecv`, or `none` when it does not return (`onRecv_eq_none_iff`). -/
def onRecv (buffer : List UInt8) : Option OnRecvState :=
  Loop.run (onRecvBody buffer) (buffer.length + 1) .start

/-! ## The packet format -/

/-- A packet announces its length in its header, as soon as the whole header is there. -/
def packetFormat : Framing.Format UInt8 where
  announced l :=
    if sizeofPacketHeader ≤ l.length then some (PacketHeader.read l).size.toNat else none
  stable := by
    intro l n h m
    rw [Option.ite_none_right_eq_some] at h
    obtain ⟨hlen, hn⟩ := h
    rw [if_pos (by rw [List.length_append]; omega), ← hn]
    unfold sizeofPacketHeader at hlen
    simp only [PacketHeader.read, List.getD_append l m 0 0 (by omega),
      List.getD_append l m 0 1 (by omega)]

theorem announced_eq_some {l : List UInt8} {n : ℕ} :
    packetFormat.announced l = some n ↔
      sizeofPacketHeader ≤ l.length ∧ (PacketHeader.read l).size.toNat = n := by
  simp only [packetFormat, Option.ite_none_right_eq_some, Option.some.injEq]

/-- The offsets the size fields lead to: `0`, and from a header that announces a packet that is
all there, the offset behind that packet. -/
inductive Boundary (l : List UInt8) : ℕ → Prop
  | start : Boundary l 0
  | next {pos n : ℕ} : Boundary l pos → packetFormat.announced (l.drop pos) = some n →
      n ≤ (l.drop pos).length → Boundary l (pos + n)

/-- No header at a packet boundary announces the size `0`. -/
def NoZeroSize (l : List UInt8) : Prop :=
  ∀ pos, Boundary l pos → packetFormat.announced (l.drop pos) ≠ some 0

theorem Boundary.le_length {l : List UInt8} {pos : ℕ} (h : Boundary l pos) : pos ≤ l.length := by
  induction h with
  | start => exact Nat.zero_le _
  | next _ _ hle ih =>
    rw [List.length_drop] at hle
    omega

theorem Boundary.of_drop {l : List UInt8} {n pos : ℕ} (hn : Boundary l n)
    (h : Boundary (l.drop n) pos) : Boundary l (n + pos) := by
  induction h with
  | start => exact hn
  | next _ ha hle ih =>
    rw [List.drop_drop] at ha hle
    rw [← Nat.add_assoc]
    exact ih.next ha hle

theorem NoZeroSize.drop {l : List UInt8} (h : NoZeroSize l) {n : ℕ} (hn : Boundary l n) :
    NoZeroSize (l.drop n) := by
  intro pos hpos
  rw [List.drop_drop]
  exact h _ (hn.of_drop hpos)

/-! ## What one pass does -/

section Pass

variable {buffer : List UInt8} {s : OnRecvState} {pos : ℕ}

/-- At an offset inside the buffer the pass is decided by what the rest of the buffer announces. -/
theorem onRecvBody_eq (hs : s.processLen = pos) (hpos : pos ≤ buffer.length)
    (hlen : buffer.length < 2 ^ 31) :
    onRecvBody buffer s =
      match packetFormat.announced (buffer.drop pos) with
      | none => .inr s
      | some n =>
        if (buffer.drop pos).length < n then .inr s
        else .inl ⟨(pos + n : ℕ), s.packets ++ [(buffer.drop pos).take n]⟩ := by
  have hsize : sizeT ((buffer.length : ℤ) - pos) = buffer.length - pos := by
    have := sizeT_of_nonneg (x := (buffer.length : ℤ) - pos) (by omega) (by omega)
    omega
  simp only [onRecvBody, hs, hsize, Int.toNat_natCast, packetFormat, List.length_drop]
  by_cases hhdr : sizeofPacketHeader ≤ buffer.length - pos
  · rw [if_neg (by omega), if_pos hhdr]
    simp only
    by_cases hfit : buffer.length - pos < (PacketHeader.read (buffer.drop pos)).size.toNat
    · rw [if_pos (by omega), if_pos hfit]
    · rw [if_neg (by omega), if_neg hfit]
      simp only [Nat.cast_add]
  · rw [if_pos (by omega), if_neg hhdr]

theorem onRecvBody_of_boundary (hs : s.processLen = pos) (hpos : pos ≤ buffer.length)
    (hlen : buffer.length < 2 ^ 31) {n : ℕ}
    (ha : packetFormat.announced (buffer.drop pos) = some n) (hle : n ≤ (buffer.drop pos).length) :
    onRecvBody buffer s = .inl ⟨(pos + n : ℕ), s.packets ++ [(buffer.drop pos).take n]⟩ := by
  rw [onRecvBody_eq hs hpos hlen, ha]
  simp only [if_neg (Nat.not_lt.2 hle)]

theorem onRecvBody_of_first_none (hs : s.processLen = pos) (hpos : pos ≤ buffer.length)
    (hlen : buffer.length < 2 ^ 31) (h0 : packetFormat.announced (buffer.drop pos) ≠ some 0)
    (hf : packetFormat.first (buffer.drop pos) = none) : onRecvBody buffer s = .inr s := by
  rw [onRecvBody_eq hs hpos hlen]
  cases ha : packetFormat.announced (buffer.drop pos) with
  | none => rfl
  | some n =>
    have hlt : (buffer.drop pos).length < n := by
      by_contra hle
      have hpos' : 0 < n := Nat.pos_of_ne_zero fun h => h0 (h ▸ ha)
      rw [packetFormat.first_eq_some.2 ⟨ha, hpos', Nat.not_lt.1 hle⟩] at hf
      cases hf
    simp only [if_pos hlt]

end Pass

/-! ## Runs of the loop -/

section Runs

variable {buffer : List UInt8} (hlen : buffer.length < 2 ^ 31)

include hlen

/-- **From a packet boundary the loop leaves with the frames of the rest**, when no header it
comes to announces `0`. -/
theorem returns_split {pos : ℕ} (hb : Boundary buffer pos) (h0 : NoZeroSize (buffer.drop pos))
    (ps : List (List UInt8)) :
    Loop.Returns (onRecvBody buffer) ⟨pos, ps⟩
      ⟨(pos + (Framing.split packetFormat (buffer.drop pos)).1.flatten.length : ℕ),
        ps ++ (Framing.split packetFormat (buffer.drop pos)).1⟩ := by
  generalize hl : buffer.drop pos = l
  rw [hl] at h0
  induction l using Framing.split_induction packetFormat generalizing pos ps with
  | none l hf =>
    have hexit := onRecvBody_of_first_none (s := ⟨pos, ps⟩) rfl hb.le_length hlen
      (hl ▸ h0 0 .start) (hl ▸ hf)
    rw [Framing.split_of_none packetFormat hf]
    simpa using Loop.returns_of_inr hexit
  | some l n hf ih =>
    obtain ⟨ha, -, hle⟩ := packetFormat.first_eq_some.1 hf
    subst hl
    have hpass := onRecvBody_of_boundary (s := ⟨pos, ps⟩) rfl hb.le_length hlen ha hle
    have hl' : buffer.drop (pos + n) = (buffer.drop pos).drop n := by rw [List.drop_drop]
    have hb' : Boundary (buffer.drop pos) n := by
      simpa using Boundary.start.next (n := n) (by simpa using ha) (by simpa using hle)
    have hrec := ih (hb.next ha hle) (ps ++ [(buffer.drop pos).take n]) (h0.drop hb') hl'
    rw [Framing.split_of_some packetFormat hf, Loop.returns_iff_of_inl hpass]
    rw [List.append_assoc, List.singleton_append] at hrec
    simpa only [List.flatten_cons, List.length_append, List.length_take, Nat.min_eq_left hle,
      ← Nat.add_assoc] using hrec

/-- The loop comes to every packet boundary. -/
theorem returns_iff_of_boundary {pos : ℕ} (hb : Boundary buffer pos) :
    ∃ ps, ∀ r, Loop.Returns (onRecvBody buffer) .start r ↔
      Loop.Returns (onRecvBody buffer) ⟨pos, ps⟩ r := by
  induction hb with
  | start => exact ⟨[], fun r => Iff.rfl⟩
  | @next pos n hb ha hle ih =>
    obtain ⟨ps, hps⟩ := ih
    have hpass := onRecvBody_of_boundary (s := ⟨pos, ps⟩) rfl hb.le_length hlen ha hle
    exact ⟨_, fun r => (hps r).trans (Loop.returns_iff_of_inl hpass)⟩

/-- At a header that announces `0` the loop goes round without advancing. -/
theorem not_terminates_of_zero_size {pos : ℕ} (hb : Boundary buffer pos)
    (ha : packetFormat.announced (buffer.drop pos) = some 0) :
    ¬ Loop.Terminates (onRecvBody buffer) .start := by
  rintro ⟨r, hr⟩
  obtain ⟨ps, hps⟩ := returns_iff_of_boundary hlen hb
  refine Loop.not_terminates_of_invariant (P := fun s : OnRecvState => s.processLen = (pos : ℤ))
    ?_ rfl ⟨r, (hps r).1 hr⟩
  intro s hs
  exact ⟨_, onRecvBody_of_boundary hs hb.le_length hlen ha (Nat.zero_le _), rfl⟩

theorem noZeroSize_of_terminates (h : Loop.Terminates (onRecvBody buffer) .start) :
    NoZeroSize buffer :=
  fun _ hb ha => not_terminates_of_zero_size hlen hb ha h

/-- **`OnRecv` delivers the frames of the buffer** and returns their total length. -/
theorem returns_onRecv (h0 : NoZeroSize buffer) :
    Loop.Returns (onRecvBody buffer) .start
      ⟨((Framing.split packetFormat buffer).1.flatten.length : ℕ),
        (Framing.split packetFormat buffer).1⟩ := by
  simpa [OnRecvState.start] using returns_split hlen (.start : Boundary buffer 0)
    (by simpa using h0) []

/-- The passes `onRecv` allows are enough. -/
theorem onRecv_eq_some (h0 : NoZeroSize buffer) :
    onRecv buffer = some ⟨((Framing.split packetFormat buffer).1.flatten.length : ℕ),
      (Framing.split packetFormat buffer).1⟩ := by
  -- every pass leads from one packet boundary to a later one
  have hstep : ∀ s s' : OnRecvState, (∃ pos : ℕ, s.processLen = pos ∧ Boundary buffer pos) →
      onRecvBody buffer s = .inl s' → (∃ pos : ℕ, s'.processLen = pos ∧ Boundary buffer pos) ∧
        buffer.length - s'.processLen.toNat < buffer.length - s.processLen.toNat := by
    rintro s s' ⟨pos, hs, hb⟩ hpass
    rw [onRecvBody_eq hs hb.le_length hlen] at hpass
    cases ha : packetFormat.announced (buffer.drop pos) with
    | none => simp [ha] at hpass
    | some n =>
      simp only [ha] at hpass
      split at hpass
      · cases hpass
      · rename_i hle
        obtain rfl := Sum.inl.inj hpass
        have hn : n ≠ 0 := fun h => h0 pos hb (h ▸ ha)
        rw [List.length_drop] at hle
        refine ⟨⟨pos + n, rfl, hb.next ha (by rw [List.length_drop]; omega)⟩, ?_⟩
        simp only [hs, Int.toNat_natCast]
        omega
  obtain ⟨r, hr⟩ := Loop.exists_run_of_measure _ hstep (s := .start) (n := buffer.length + 1)
    ⟨0, rfl, .start⟩ (by simp only [OnRecvState.start, Int.toNat_zero]; omega)
  rw [onRecv, hr, Loop.Returns.unique ⟨_, hr⟩ (returns_onRecv hlen h0)]

/-- `onRecv` is `none` exactly when the loop does not leave. -/
theorem onRecv_eq_none_iff : onRecv buffer = none ↔ ¬ NoZeroSize buffer := by
  constructor
  · intro h h0
    rw [onRecv_eq_some hlen h0] at h
    cases h
  · intro h0
    rw [← Option.not_isSome_iff_eq_none, Option.isSome_iff_exists]
    rintro ⟨r, hr⟩
    exact h0 (noZeroSize_of_terminates hlen ⟨r, _, hr⟩)

/-- **The framing loop returns a length inside the buffer exactly when no header it comes to
announces the size `0`.** -/
theorem onRecv_returns_in_range_iff :
    (∃ r, Loop.Returns (onRecvBody buffer) .start r ∧ 0 ≤ r.processLen ∧
      r.processLen ≤ buffer.length) ↔ NoZeroSize buffer := by
  constructor
  · rintro ⟨r, hr, -⟩
    exact noZeroSize_of_terminates hlen ⟨r, hr⟩
  · intro h0
    refine ⟨_, returns_onRecv hlen h0, by positivity, ?_⟩
    have hsplit := congrArg List.length (Framing.split_flatten_append packetFormat buffer)
    rw [List.length_append] at hsplit
    simp only
    omega

end Runs

/-- A packet that is its header alone. -/
theorem onRecv_returns_in_range_of_header :
    (∃ r, Loop.Returns (onRecvBody [4, 0, 10, 0]) .start r ∧ 0 ≤ r.processLen ∧
      r.processLen ≤ ([4, 0, 10, 0] : List UInt8).length) ↔ NoZeroSize [4, 0, 10, 0] :=
  onRecv_returns_in_range_iff (by decide)

/-- Four bytes with the size field `0`: the loop never leaves. -/
theorem onRecv_zero_size :
    ¬ ∃ r, Loop.Returns (onRecvBody [0, 0, 10, 0]) .start r ∧ 0 ≤ r.processLen ∧
      r.processLen ≤ ([0, 0, 10, 0] : List UInt8).length := by
  rintro ⟨r, hr, -⟩
  exact not_terminates_of_zero_size (by decide) .start (by decide) ⟨r, hr⟩

end Zelda.ServerCore
