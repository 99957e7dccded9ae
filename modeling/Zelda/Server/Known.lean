import Zelda.Client.Animation
import Zelda.Replication
import Zelda.Server.Removal

/-!
# Ids that are never used again

Ids are handed out in order, and nothing is sent about an object that does not exist yet
(`World.Known`). An object that has left the room does not come back, whatever the server does
(`ServerStep.findObject_eq_none`).
-/

namespace Zelda.Server

open Protocol Std Client

variable {P : Platform} {w w₁ w' : World} {s : SessionId} {id : ObjectId} {ref : ObjectRef}
  {info : ObjectInfo} {pkt : CMove} {msg : ServerPacket} {evs : List Event} {tilemap : Tilemap}

/-! ## What was sent -/

/-- Every info that was sent has an id that was handed out. -/
def World.Known (w : World) : Prop :=
  ∀ s msg, .send s msg ∈ w.trace → ∀ info ∈ infosOf msg, info.objectid < w.idGenerator

theorem Registry.objectid_lt (h : Registry w) (hi : w.room.info? ref = some info) :
    info.objectid < w.idGenerator := by
  rw [h.objectid hi]
  exact h.lt_idGenerator (GameRoom.registered_of_info? hi)

namespace World.Known

theorem of_trace (h : w.Known) (htrace : w'.trace = w.trace ++ evs)
    (hgen : w.idGenerator ≤ w'.idGenerator) (hevs : ∀ s msg, .send s msg ∈ evs →
      ∀ info ∈ infosOf msg, info.objectid < w'.idGenerator) : w'.Known := by
  intro s msg hmem info hinfo
  rw [htrace, List.mem_append] at hmem
  rcases hmem with hmem | hmem
  · exact (h s msg hmem info hinfo).trans_le hgen
  · exact hevs s msg hmem info hinfo

theorem of_still (h : w.Known) (hq : Still w w' []) : w'.Known :=
  h.of_trace hq.trace hq.idGenerator.ge fun _ _ hmem => absurd hmem List.not_mem_nil

theorem of_announce (h : w.Known) {r : GameRoom} (hq : Quiet w₁ w' (r.announce msg))
    (htrace : w₁.trace = w.trace) (hgen : w.idGenerator ≤ w₁.idGenerator)
    (hmsg : ∀ info ∈ infosOf msg, info.objectid < w₁.idGenerator) : w'.Known := by
  have hgen' : w'.idGenerator = w₁.idGenerator := hq.idGenerator
  have hall : w'.trace = w.trace ++ r.announce msg := by rw [hq.trace, htrace]
  refine h.of_trace hall (hgen'.symm ▸ hgen) fun s msg' hmem => ?_
  obtain ⟨_, -, heq⟩ := List.mem_map.1 hmem
  cases heq
  rw [hgen']
  exact hmsg

theorem of_sMove (h : w.Known) {r : GameRoom} (hq : Quiet w₁ w' (r.announce (.sMove info)))
    (htrace : w₁.trace = w.trace) (hgen : w₁.idGenerator = w.idGenerator)
    (hlt : info.objectid < w.idGenerator) : w'.Known := by
  refine h.of_announce hq htrace hgen.ge fun info' hinfo' => ?_
  rw [List.mem_singleton.1 hinfo', hgen]
  exact hlt

end World.Known

theorem Edit.known (he : Edit w w') (hr : Registry w) (h : w.Known) : w'.Known := by
  have hlog : ∀ e : Event, (∀ s msg, e ≠ .send s msg) → (w.log e).Known := by
    intro e he
    have hlog : (w.log e).trace = w.trace ++ [e] := rfl
    refine h.of_trace hlog le_rfl fun s msg hmem => ?_
    exact absurd (List.mem_singleton.1 hmem).symm (he s msg)
  cases he with
  | skill id => exact hlog _ fun _ _ heq => by cases heq
  | damage => exact hlog _ fun _ _ heq => by cases heq
  | @hurt _ _ _ a v _ hv _ hq =>
    have hlt : v.objectid < w.idGenerator := hr.objectid_lt hv
    exact h.of_sMove hq rfl rfl hlt
  | erase _ hq => exact h.of_announce hq rfl le_rfl fun _ hmem => absurd hmem List.not_mem_nil
  | think => exact h
  | @act _ id m f hm hbody _ hq =>
    have hi : w.room.info? (.monster id) = some m.info := GameRoom.info?_of_monster hm
    refine h.of_sMove hq rfl rfl ?_
    rw [hbody.objectid]
    exact hr.objectid_lt hi
  | announce hinfo hq => exact h.of_sMove hq rfl rfl (hr.objectid_lt hinfo)

theorem Edits.known (he : Edits w w') (hr : Registry w) (h : w.Known) : w'.Known := by
  induction he with
  | refl => exact h
  | tail hfirst hlast ih => exact hlast.known (Edits.registry hfirst hr) ih

theorem Moved.known (hm : Moved pkt w w') (hr : Registry w) (h : w.Known) : w'.Known := by
  cases hm with
  | absent => exact h
  | @moved ref prev w₁ _ _ hprev hattack _ hq =>
    have hset : (w.modifyInfo ref (moveInfo pkt)).Known := h
    have hlt : ((w₁.room.info? ref).getD (moveInfo pkt prev)).objectid < w₁.idGenerator := by
      have hsame := hattack.info?_self hr.moveInfo
      rw [World.info?_modifyInfo_of_info? hprev, if_pos rfl] at hsame
      rw [hsame, Option.getD_some, moveInfo_objectid, hattack.edits.idGenerator]
      exact hr.objectid_lt hprev
    exact (hattack.edits.known hr.moveInfo hset).of_sMove hq rfl rfl hlt

theorem Connected.known (hc : Connected s w w') (hr : Registry w) (h : w.Known) : w'.Known := by
  have hgen := hc.idGenerator
  obtain ⟨hsend, henter⟩ := hc
  have htrace := henter.trace_eq
  rw [hsend.trace, World.trace_setSession, List.append_assoc] at htrace
  have hroom := hsend.room
  have hnew : ∀ info ∈ infosOf (.sAddObject [(enteringPlayer w.idGenerator s).info]),
      info.objectid < w'.idGenerator := by
    intro info hinfo
    rw [List.mem_singleton.1 hinfo, hgen]
    exact Nat.lt_succ_self _
  rename_i mid
  have hmidgen : mid.idGenerator = w.idGenerator := hsend.idGenerator
  rw [hmidgen] at htrace
  refine h.of_trace htrace (hgen.symm ▸ Nat.le_succ _) fun t msg hmem => ?_
  simp only [List.mem_append, List.mem_cons, List.not_mem_nil, or_false] at hmem
  rcases hmem with hmem | (hmem | hmem) | hmem
  · cases hmem
    exact fun _ hinfo => absurd hinfo List.not_mem_nil
  · cases hmem
    exact hnew
  · cases hmem
    intro info hinfo
    obtain ⟨ref, hi⟩ := GameRoom.mem_infos.1 hinfo
    rw [hroom] at hi
    rw [hgen]
    exact Nat.lt_succ_of_lt (hr.objectid_lt hi)
  · obtain ⟨_, -, heq⟩ := List.mem_map.1 hmem
    cases heq
    exact hnew

theorem Ran.known (hran : Ran w w') (hr : Registry w) (h : w.Known) : w'.Known := by
  obtain ⟨w₁, w₂, hbefore, hedits, hafter⟩ := hran
  exact (hedits.known (hr.of_still hbefore) (h.of_still hbefore)).of_still hafter

theorem ServerStep.known {ev : ServerEvent} (hs : ServerStep P w ev w') (hr : Registry w)
    (h : w.Known) : w'.Known := by
  rcases hs.change hr with hran | ⟨s, -, -, hc⟩ | ⟨s, pkt, -, rfl | hm⟩
  · exact hran.known hr h
  · exact hc.known hr h
  · exact h
  · exact hm.known hr h

theorem known_of_serverRun {C : World → ServerEvent → Prop}
    (h : Reaches (ServerStep P) C (World.init tilemap) w) : w.Known := by
  have hall : Registry w ∧ w.Known := by
    refine h.invariant (I := fun w => Registry w ∧ w.Known) ?_
      ⟨registry_init tilemap, fun _ _ hmem => absurd hmem List.not_mem_nil⟩
    rintro w₁ ev w₂ ⟨hr, hk⟩ - hs
    exact ⟨hs.registry hr, hs.known hr hk⟩
  exact hall.2

/-! ## Who has left -/

/-- **No object comes back**: what a step registers has a new id. -/
theorem ServerStep.registered {ev : ServerEvent} (hs : ServerStep P w ev w') (hr : Registry w)
    (hid : ref.id < w.idGenerator) (hreg : w'.room.Registered ref) : w.room.Registered ref := by
  rcases hs.change hr with ⟨w₁, w₂, hbefore, hedits, hafter⟩ | ⟨s, -, -, hc⟩ | ⟨s, pkt, -, rfl | hm⟩
  · rw [hafter.room] at hreg
    rw [← hbefore.room]
    exact hedits.registered hreg
  · rw [hc.room, GameRoom.Registered, GameRoom.info?_addPlayer, if_neg] at hreg
    · exact hreg
    · rintro rfl
      exact absurd hid (lt_irrefl _)
  · exact hreg
  · exact hm.registered hreg

theorem ServerStep.findObject_eq_none {ev : ServerEvent} (hs : ServerStep P w ev w')
    (hr : Registry w) (hid : id < w.idGenerator) (hnone : w.room.findObject id = none) :
    w'.room.findObject id = none := by
  rw [GameRoom.findObject_eq_none_iff] at hnone ⊢
  rintro ref rfl hreg
  exact hnone ref rfl (hs.registered hr hid hreg)

end Zelda.Server
