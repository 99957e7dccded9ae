import Mathlib.Tactic

/-!
# Edges seen at the other end of a channel

A sender has a value that it changes and sends through a channel that keeps the order; a receiver
stores the last value it got. Both look for edges, changes from one value to the next that satisfy
`edge`. Each message is labelled with whether it was an edge for the sender.

The labels are what the receiver will find (`Labelled`), so it sees each edge once, when its message
arrives (`Exact.receive_label`), and what it has seen and what is under way add up to what was there
(`Exact`).
-/

namespace Zelda

variable {α : Type*} {edge : α → α → Bool}

/-- Values that lead from `a` to `b`, each labelled with whether it is an edge from the one
before. -/
def Labelled (edge : α → α → Bool) : α → List (α × Bool) → α → Prop
  | a, [], b => a = b
  | a, (c, label) :: l, b => label = edge a c ∧ Labelled edge c l b

theorem Labelled.snoc {l : List (α × Bool)} {a b : α} (h : Labelled edge a l b) (c : α) :
    Labelled edge a (l ++ [(c, edge b c)]) c := by
  induction l generalizing a with
  | nil =>
    obtain rfl : a = b := h
    exact ⟨rfl, rfl⟩
  | cons head l ih =>
    obtain ⟨hlabel, hl⟩ := h
    exact ⟨hlabel, ih hl⟩

/-- A sender and a receiver with the messages between them, and the edges that each has seen. -/
structure Relay (α : Type*) where
  sender : α
  channel : List (α × Bool)
  receiver : α
  sent : ℕ
  seen : ℕ

namespace Relay

variable {r : Relay α}

/-- The sender changes its value and sends it. -/
def send (edge : α → α → Bool) (r : Relay α) (c : α) : Relay α :=
  { r with
    sender := c
    channel := r.channel ++ [(c, edge r.sender c)]
    sent := r.sent + (edge r.sender c).toNat }

/-- The receiver takes the first message. -/
def receive (edge : α → α → Bool) (r : Relay α) (c : α) (l : List (α × Bool)) : Relay α :=
  { r with
    receiver := c
    channel := l
    seen := r.seen + (edge r.receiver c).toNat }

/-- The labels are right, and the edges add up. -/
structure Exact (edge : α → α → Bool) (r : Relay α) : Prop where
  labelled : Labelled edge r.receiver r.channel r.sender
  sum : r.seen + r.channel.countP (·.2) = r.sent

theorem Exact.start (a : α) (n : ℕ) : Exact edge ⟨a, [], a, n, n⟩ := ⟨rfl, rfl⟩

theorem Exact.send (h : Exact edge r) (c : α) : Exact edge (r.send edge c) where
  labelled := h.labelled.snoc c
  sum := by
    have hsum := h.sum
    show r.seen + (r.channel ++ [(c, edge r.sender c)]).countP (·.2) = _
    rw [List.countP_append, List.countP_singleton, Relay.send]
    cases edge r.sender c
    · simp only [Bool.false_eq_true, if_false, Bool.toNat_false]
      omega
    · simp only [if_true, Bool.toNat_true]
      omega

/-- **The receiver sees an edge exactly where the sender made one.** -/
theorem Exact.receive_label (h : Exact edge r) {c : α} {label : Bool} {l : List (α × Bool)}
    (hl : r.channel = (c, label) :: l) : edge r.receiver c = label := by
  have hlabelled := h.labelled
  rw [hl] at hlabelled
  exact hlabelled.1.symm

theorem Exact.receive (h : Exact edge r) {c : α} {label : Bool} {l : List (α × Bool)}
    (hl : r.channel = (c, label) :: l) : Exact edge (r.receive edge c l) where
  labelled := by
    have hlabelled := h.labelled
    rw [hl] at hlabelled
    exact hlabelled.2
  sum := by
    have hsum := h.sum
    rw [hl, List.countP_cons] at hsum
    show r.seen + (edge r.receiver c).toNat + l.countP (·.2) = r.sent
    rw [h.receive_label hl]
    cases label
    · simp only [Bool.false_eq_true, if_false, Bool.toNat_false] at hsum ⊢
      omega
    · simp only [if_true, Bool.toNat_true] at hsum ⊢
      omega

/-- **Once the channel is empty, the receiver has seen every edge.** -/
theorem Exact.seen_eq (h : Exact edge r) (hl : r.channel = []) : r.seen = r.sent := by
  have hsum := h.sum
  rwa [hl, List.countP_nil, Nat.add_zero] at hsum

end Relay

end Zelda
