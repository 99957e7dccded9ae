import Zelda.Server.Ownership

/-!
# A packet that is handled twice

After `Handle_C_Move` the object that the packet names is what the packet asks for
(`repeats_moveInfo`), so handling the packet once more only announces the object again
(`handleCMove_again`). In particular the state is that of the packet by then, and an attack starts
with a new state only.

Main result: `handleCMove_twice`.
-/

namespace Zelda.Server

open Protocol

variable {P : Platform} {tilemap : Tilemap} {w w' : World} {ref : ObjectRef} {pkt : CMove}
  {info prev : ObjectInfo}

/-- After a move the object is what the packet asks for. -/
theorem repeats_moveInfo (pkt : CMove) (hfit : Fit info) : Repeats pkt (moveInfo pkt info) where
  state := (moveInfo_state pkt info).symm
  dir := (moveInfo_dir pkt info).symm
  cellPos := (moveInfo_getCellPos pkt info).symm
  attack := (moveInfo_attack pkt info).symm
  defence := (moveInfo_defence pkt info).symm
  maxhp := by
    rw [moveInfo_maxhp pkt hfit.maxhp]
    split
    · exact .inr rfl
    · rename_i hnot
      by_contra hother
      obtain ⟨hpos, hne⟩ := not_or.1 hother
      exact hnot ⟨Int32.not_le.1 hpos, hne⟩

/-- A packet that asks for what the object already is announces it. -/
theorem handleCMove_of_repeats (hfind : w.room.findObject pkt.info.objectid = some ref)
    (hinfo : w.room.info? ref = some info) (hfit : Fit info) (hrepeats : Repeats pkt info) :
    handleCMove P pkt w = broadcast P (.sMove info) w := by
  have hmove := moveInfo_of_repeats hrepeats hfit
  have hroom : w.modifyInfo ref (moveInfo pkt) = w := by
    rw [World.modifyInfo, GameRoom.modifyInfo_eq_self hinfo hmove]
    rfl
  have hcalm : ¬ (info.objecttype = objectTypePlayer ∧ info.state ≠ skill ∧ info.state = skill) :=
    fun h => h.2.1 h.2.2
  simp only [handleCMove, hfind, hinfo, hmove, hroom, if_neg hcalm]
  show broadcast P (.sMove ((w.room.info? ref).getD info)) w = broadcast P (.sMove info) w
  rw [hinfo, Option.getD_some]

/-- What the first handling leaves is what the packet asks for. -/
theorem Moved.repeats {w₁ : World} (hm : Moved pkt w w₁) (hr : Registry w) (hs : Sound w)
    {ref : ObjectRef} (hfind : w₁.room.findObject pkt.info.objectid = some ref) :
    ∃ info, w₁.room.info? ref = some info ∧ Fit info ∧ Repeats pkt info := by
  cases hm with
  | absent hnone => cases hnone.symm.trans hfind
  | @moved ref' prev w₂ _ hfind' hprev hattack _ hquiet =>
    have hself : w₁.room.info? ref' = some (moveInfo pkt prev) := by
      rw [hquiet.room, hattack.info?_self hr.moveInfo, World.info?_modifyInfo, if_pos rfl, hprev]
      rfl
    have hr₁ : Registry w₁ := (hattack.edits.registry hr.moveInfo).of_quiet hquiet
    obtain ⟨hid, -⟩ := GameRoom.findObject_eq_some hfind'
    have hsame := hr₁.findObject (GameRoom.registered_of_info? hself)
    rw [hid] at hsame
    obtain rfl := Option.some.inj (hsame.symm.trans hfind)
    have hfit := hs.fit hprev
    exact ⟨_, hself, (fit_moveInfo pkt hfit).1, repeats_moveInfo pkt hfit⟩

/-- The second handling drops the packet or announces the object. -/
theorem handleCMove_again {w₁ : World} (hm : Moved pkt w w₁) (hr : Registry w) (hs : Sound w) :
    handleCMove P pkt w₁ = .ok w₁ ∨ ∃ info, handleCMove P pkt w₁ = broadcast P (.sMove info) w₁ := by
  cases hfind : w₁.room.findObject pkt.info.objectid with
  | none =>
    refine .inl ?_
    simp only [handleCMove, hfind]
  | some ref =>
    obtain ⟨info, hinfo, hfit, hrepeats⟩ := hm.repeats hr hs hfind
    exact .inr ⟨info, handleCMove_of_repeats hfind hinfo hfit hrepeats⟩

/-- From `w` to `w'` only messages have been sent. -/
structure OnlySends (w w' : World) : Prop where
  room : w'.room = w.room
  trace : ∃ sends, w'.trace = w.trace ++ sends ∧ ∀ e ∈ sends, ∃ s pkt, e = .send s pkt

theorem onlySends_of_broadcast {msg : ServerPacket} (hr : Registry w)
    (hok : broadcast P msg w = .ok w') : OnlySends w w' := by
  have hq := broadcast_ok hr.toLinked hok
  refine ⟨hq.room, _, hq.trace, fun e he => ?_⟩
  obtain ⟨s, -, rfl⟩ := List.mem_map.1 he
  exact ⟨s, msg, rfl⟩

/-- **A repeated packet is harmless**: the second handling leaves the room as it is and hits nobody,
and it returns unless a send in it drops a session. -/
theorem handleCMove_twice (P : Platform) (tilemap : Tilemap) (w w₁ : World) (pkt : CMove)
    (h : RoomReachable P tilemap w ∨ ServerReachable P tilemap w)
    (hok : handleCMove P pkt w = .ok w₁) :
    (∀ w₂, handleCMove P pkt w₁ = .ok w₂ → OnlySends w₁ w₂) ∧
      ((∀ s ∈ w₁.room.audience, ¬ Drops P w₁ s) → ∃ w₂, handleCMove P pkt w₁ = .ok w₂) := by
  have hinv : Registry w ∧ Sound w := by
    rcases h with h | h
    · have hr := registry_of_roomRun h (registry_init tilemap)
      exact ⟨hr, (sound_of_run h (registry_init tilemap) (sound_init tilemap)).1⟩
    · exact sound_of_serverRun h
  obtain ⟨hr, hs⟩ := hinv
  have hm := handleCMove_ok hr hok
  have hr₁ := hm.registry hr
  rcases handleCMove_again (P := P) hm hr hs with hdropped | ⟨info, hsay⟩
  · refine ⟨fun w₂ hw₂ => ?_, fun _ => ⟨w₁, hdropped⟩⟩
    obtain rfl := Except.ok.inj (hdropped.symm.trans hw₂)
    exact ⟨rfl, [], (List.append_nil _).symm, fun e he => absurd he List.not_mem_nil⟩
  · rw [hsay]
    exact ⟨fun w₂ hw₂ => onlySends_of_broadcast hr₁ hw₂,
      (broadcast_eq_ok_iff hr₁.toLinked _).2⟩

/-- The packet of a player that attacks the first monster. -/
def strikingPacket : CMove :=
  ⟨{ ((enteringPlayer 2 0).info.setCellPos ⟨8, 7⟩).setDir dirDown with state := skill }⟩

/-- The room after the first attack. -/
def afterFirstSwing : World :=
  Result.world (handleCMove (.always .accepted) strikingPacket (afterEnter {}))

theorem handleCMove_twice_strikingPacket :
    (.applyDamage (.player 2) (.monster 1) 15 0 50 15 ∈ afterFirstSwing.trace) ∧
      (∀ w₂, handleCMove (.always .accepted) strikingPacket afterFirstSwing = .ok w₂ →
        OnlySends afterFirstSwing w₂) ∧
      ((∀ s ∈ afterFirstSwing.room.audience, ¬ Drops (.always .accepted) afterFirstSwing s) →
        ∃ w₂, handleCMove (.always .accepted) strikingPacket afterFirstSwing = .ok w₂) :=
  ⟨by decide +kernel, handleCMove_twice (.always .accepted) {} (afterEnter {}) afterFirstSwing
    strikingPacket (.inl (.single trivial (roomStep_afterEnter {}))) rfl⟩

end Zelda.Server
