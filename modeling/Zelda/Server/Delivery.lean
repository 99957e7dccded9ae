import Zelda.Server.Runs

/-!
# What one broadcast delivers

`GameRoom::Broadcast` is to hand the message once to every player that is in the room when it starts
and is still connected when it ends, without its loop ever going on from an erased entry
(`Delivers`). It does so exactly when none of its sends fails with a code that disconnects
(`broadcast_delivers_iff`): such a failure takes the player out of the map that the loop is running
over.
-/

namespace Zelda.Server

open Protocol Std

variable {P : Platform} {w w' : World} {s : SessionId} {pkt : ServerPacket}

/-- How often `pkt` was handed to the session on the way from `w` to `w'`. -/
def handed (w w' : World) (s : SessionId) (pkt : ServerPacket) : ℕ :=
  (w'.trace.drop w.trace.length).count (.send s pkt)

/-- The broadcast ends, and every player of the room it started in that is still connected was
handed the message once. -/
def Delivers (P : Platform) (pkt : ServerPacket) (w : World) : Prop :=
  ∃ w', broadcast P pkt w = .ok w' ∧
    ∀ s ∈ w.room.audience, (w'.sessions s).connected = true → handed w w' s pkt = 1

theorem Linked.nodup_audience (hl : Linked w) : w.room.audience.Nodup := by
  refine List.Nodup.filterMap ?_ ExtTreeMap.nodup_keys
  intro id id' s hs hs'
  by_contra hne
  exact hl.session_ne hs hs' hne rfl

theorem Quiet.handed_announce (hl : Linked w) (hq : Quiet w w' (w.room.announce pkt))
    (hs : s ∈ w.room.audience) : handed w w' s pkt = 1 := by
  have hinj : Function.Injective (Event.send · pkt) := fun a b h => (Event.send.inj h).1
  rw [handed, hq.trace, List.drop_left]
  exact (List.count_map_of_injective _ _ hinj s).trans (List.count_eq_one_of_mem hl.nodup_audience hs)

/-- **A broadcast delivers exactly when none of its sends drops a session.** -/
theorem broadcast_delivers_iff (hl : Linked w) (pkt : ServerPacket) :
    Delivers P pkt w ↔ ∀ s ∈ w.room.audience, ¬ Drops P w s := by
  constructor
  · rintro ⟨w', hw', -⟩
    exact (broadcast_eq_ok_iff hl pkt).1 ⟨w', hw'⟩
  · intro hno
    obtain ⟨w', hw'⟩ := (broadcast_eq_ok_iff hl pkt).2 hno
    exact ⟨w', hw', fun s hs _ => (broadcast_ok hl hw').handed_announce hl hs⟩

/-! ## A room with one player -/

/-- One player, connected, in the room. -/
def onePlayer : World where
  room := { players := (∅ : ExtTreeMap ObjectId Player).insert 1
              { createPlayer 1 0 with room := true } }
  idGenerator := 2
  sessions s := if s = 0 then { connected := true, player := some 1, gameRoom := true } else {}

theorem linked_onePlayer : Linked onePlayer where
  player_of_session {id s} hs := by
    rw [GameRoom.session?, onePlayer, ExtTreeMap.getElem?_insert] at hs
    split at hs
    · rename_i hid
      obtain rfl := LawfulEqCmp.eq_of_compare hid
      obtain rfl := Option.some.inj hs
      rfl
    · simp at hs
  objecttype {ref info} hi := by
    cases ref with
    | player id =>
      rw [GameRoom.info?_player, onePlayer, ExtTreeMap.getElem?_insert] at hi
      split at hi
      · obtain rfl := Option.some.inj hi
        rfl
      · simp at hi
    | monster id => simp [GameRoom.info?_monster, onePlayer] at hi
  not_monster _ := ExtTreeMap.not_mem_empty

/-- The player's connection is reset: the broadcast does not deliver. -/
theorem not_delivers_reset :
    Linked onePlayer ∧
      ¬ Delivers (.always (.failed wsaeConnReset)) (.sRemoveObject [7]) onePlayer := by
  refine ⟨linked_onePlayer, ?_⟩
  rintro ⟨w', hw', -⟩
  have hmem : (0 : SessionId) ∈ onePlayer.room.audience := GameRoom.mem_audience.2 ⟨1, by decide⟩
  exact (broadcast_eq_ok_iff linked_onePlayer _).1 ⟨w', hw'⟩ 0 hmem (by decide)

/-- The player's send is accepted: the broadcast delivers. -/
theorem broadcast_delivers_onePlayer :
    Delivers (.always .accepted) (.sRemoveObject [7]) onePlayer := by
  refine (broadcast_delivers_iff linked_onePlayer _).2 ?_
  rintro s - ⟨-, -, hres⟩
  cases hres

end Zelda.Server
