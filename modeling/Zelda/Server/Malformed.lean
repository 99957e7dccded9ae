import Zelda.Protocol.Parse
import Zelda.Server.Ownership

/-!
# Malformed moves

`ServerPacketHandler::Handle_C_Move` does not look at what `ParseFromArray` returns. A payload that
breaks somewhere is handled like the message that was parsed up to there, with the rest of its
fields at their defaults: an object whose id has come through is moved to cell (0, 0), unless the
rest has come through too.

* `receivePayload_keepsRoom_iff`: a malformed payload leaves the room as it is exactly if its
  message names no object of the room or repeats what the object is.
* `not_keepsRoom_cutOff`: a packet that is cut off after the id moves the player.
-/

namespace Zelda.Server

open Protocol

variable (P : Platform)

/-- `ServerPacketHandler::Handle_C_Move` -/
def receivePayload (s : SessionId) (payload : List UInt8) (w : World) : Result :=
  receiveCMove P s (CMove.parseFromArray payload).2 w

variable {P} {w w' : World} {s : SessionId} {pkt : CMove} {tilemap : Tilemap} {payload : List UInt8}

/-- The sender is not in the room, or the message names no object of it, or asks for nothing new. -/
def Ignored (w : World) (s : SessionId) (pkt : CMove) : Prop :=
  (w.sessions s).gameRoom = true → ∀ ref info, w.room.findObject pkt.info.objectid = some ref →
    w.room.info? ref = some info → Repeats pkt info

/-- A move leaves the room as it is exactly if it changes nothing about its object. -/
theorem Moved.room_eq_iff (hm : Moved pkt w w') (hr : Registry w) (hs : Sound w) :
    w'.room = w.room ↔ ∀ ref info, w.room.findObject pkt.info.objectid = some ref →
      w.room.info? ref = some info → Repeats pkt info := by
  cases hm with
  | absent hfind =>
    refine iff_of_true rfl fun ref info hsome => ?_
    cases hfind.symm.trans hsome
  | @moved ref prev w₁ _ hfind hprev hattack hcalm hq =>
    constructor
    · intro hroom ref' info hfind' hinfo
      obtain rfl := Option.some.inj (hfind.symm.trans hfind')
      obtain rfl := Option.some.inj (hprev.symm.trans hinfo)
      have hnow : w'.room.info? ref = some (moveInfo pkt prev) := by
        rw [hq.room, hattack.info?_self hr.moveInfo, World.info?_modifyInfo_of_info? hprev,
          if_pos rfl]
      rw [hroom, hprev] at hnow
      exact repeats_of_moveInfo (hs.fit hprev) (Option.some.inj hnow).symm
    · intro hall
      have hrepeats := hall ref prev hfind hprev
      rw [hq.room, hcalm hrepeats.state.symm, World.room_modifyInfo]
      exact GameRoom.modifyInfo_eq_self hprev (moveInfo_of_repeats hrepeats (hs.fit hprev))

/-- **A malformed move changes nothing exactly when it is ignored**, in every reachable state, for
every session and every payload that does not parse. -/
theorem receivePayload_keepsRoom_iff (h : ServerReachable P tilemap w)
    (hbad : CMove.parseFromArray payload = (false, pkt))
    (hok : receivePayload P s payload w = .ok w') : w'.room = w.room ↔ Ignored w s pkt := by
  obtain ⟨hr, hsound⟩ := sound_of_serverRun h
  rw [receivePayload, hbad] at hok
  rcases receiveCMove_cases hok with ⟨hroom, hhandle⟩ | ⟨hroom, rfl⟩
  · rw [(handleCMove_ok hr hhandle).room_eq_iff hr hsound]
    exact ⟨fun hall _ => hall, fun hall => hall hroom⟩
  · exact iff_of_true rfl fun htrue => absurd htrue hroom

/-! ## A packet that is cut off -/

/-- The length says that four bytes follow, but after an object id there are no more. -/
def cutOff (id : UInt8) : List UInt8 := [10, 4, 8, id]

/-- What is left of the first player's move is an id, with state, direction and cell 0. -/
theorem not_keepsRoom_cutOff : ¬ ∀ (P : Platform) (tilemap : Tilemap) (w w' : World) (s : SessionId)
    (payload : List UInt8) (pkt : CMove), ServerReachable P tilemap w →
      CMove.parseFromArray payload = (false, pkt) → receivePayload P s payload w = .ok w' →
        w'.room = w.room := by
  intro hall
  have hroom := hall (.always .accepted) {} (afterConnect .accepted) _ 0 (cutOff 2)
    ⟨{ objectid := 2 }⟩ serverReachable_afterConnect (by decide) rfl
  have hcell := congrArg (fun r => (r.info? (.player 2)).map (·.getCellPos)) hroom
  exact absurd hcell (by decide)

/-- A packet that names nobody is dropped. -/
theorem keepsRoom_cutOff : ∃ w', receivePayload (.always .accepted) 0 (cutOff 99)
    (afterConnect .accepted) = .ok w' ∧ w'.room = (afterConnect .accepted).room := by
  have hbad : CMove.parseFromArray (cutOff 99) = (false, ⟨{ objectid := 99 }⟩) := by decide
  obtain ⟨w', hok⟩ : ∃ w', receivePayload (.always .accepted) 0 (cutOff 99)
      (afterConnect .accepted) = .ok w' := ⟨_, rfl⟩
  refine ⟨w', hok, (receivePayload_keepsRoom_iff serverReachable_afterConnect hbad hok).2
    fun _ ref info hfind => ?_⟩
  have hnone : (afterConnect .accepted).room.findObject 99 = none := rfl
  cases hnone.symm.trans hfind

end Zelda.Server
