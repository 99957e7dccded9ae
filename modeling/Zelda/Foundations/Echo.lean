import Mathlib.Tactic

/-!
# A value that comes back

A client has a value and sends it through a channel that keeps the order. The server stores what it
gets and sends it back through a second channel, and it may send what it has stored at any other
time too. What comes back replaces the value of the client, who may send that again.

However the messages cross, only what the client sent last is left in the end: it is the last thing
in the first channel, or what the server has stored, and then the last thing in the second channel,
or what the client has (`Settles`).
-/

namespace Zelda

variable {α : Type*} {a b : α} {l : List α}

/-! ## The newest value of a channel -/

/-- What a receiver has when it has taken all that is in its channel. -/
def newest (stored : α) (channel : List α) : α := channel.getLast?.getD stored

@[simp] theorem newest_nil : newest a [] = a := rfl

@[simp] theorem newest_concat : newest a (l ++ [b]) = b := by
  simp [newest]

@[simp] theorem newest_cons : newest a (b :: l) = newest b l := by
  simp [newest, List.getLast?_cons]

/-! ## A client and a server -/

/-- The values of a client and a server, the channels in both directions, and what the client has
sent last. -/
structure Echo (α : Type*) where
  client : α
  up : List α
  server : α
  down : List α
  sent : α

namespace Echo

variable {e : Echo α}

/-- The client takes a value, maybe the one it has, and sends it. -/
def send (e : Echo α) (a : α) : Echo α := { e with client := a, up := e.up ++ [a], sent := a }

/-- The server takes a message, stores it and sends it back. -/
def serve (e : Echo α) (a : α) (l : List α) : Echo α :=
  { e with up := l, server := a, down := e.down ++ [a] }

/-- The server sends what it has stored. -/
def announce (e : Echo α) : Echo α := { e with down := e.down ++ [e.server] }

/-- The client takes a message over. -/
def receive (e : Echo α) (a : α) (l : List α) : Echo α := { e with client := a, down := l }

/-- What was sent last is what the server ends up with, and then the client. -/
structure Settles (e : Echo α) : Prop where
  server : newest e.server e.up = e.sent
  client : e.up = [] → newest e.client e.down = e.sent

namespace Settles

theorem start (a : α) : Settles ⟨a, [], a, [], a⟩ := ⟨rfl, fun _ => rfl⟩

theorem send (e : Echo α) (a : α) : (e.send a).Settles where
  server := newest_concat
  client hup := absurd hup (List.append_ne_nil_of_right_ne_nil _ (List.cons_ne_nil a []))

theorem serve (h : e.Settles) (hup : e.up = a :: l) : (e.serve a l).Settles := by
  have hserver : newest a l = e.sent := by
    rw [← h.server, hup, newest_cons]
  refine ⟨hserver, fun hl => ?_⟩
  have hl : l = [] := hl
  rw [hl, newest_nil] at hserver
  exact newest_concat.trans hserver

theorem announce (h : e.Settles) : e.announce.Settles where
  server := h.server
  client hup := by
    have hserver := h.server
    rw [show e.up = [] from hup, newest_nil] at hserver
    exact newest_concat.trans hserver

theorem receive (h : e.Settles) (hdown : e.down = a :: l) : (e.receive a l).Settles where
  server := h.server
  client hup := by
    have hclient := h.client hup
    rwa [hdown, newest_cons] at hclient

/-- **Once both channels are empty, both sides have what was sent last.** -/
theorem agree (h : e.Settles) (hup : e.up = []) (hdown : e.down = []) :
    e.client = e.sent ∧ e.server = e.sent := by
  have hserver := h.server
  have hclient := h.client hup
  rw [hup, newest_nil] at hserver
  rw [hdown, newest_nil] at hclient
  exact ⟨hclient, hserver⟩

end Settles

end Echo

end Zelda
