import Zelda.Client.DevScene

/-!
# Scenes that mirror a set of objects

A set of objects is given by the info of each id (a view). A scene mirrors it (`Mirrors`) if it has
one object for each id and every object but the client's own player shows its info; ids that are
dirty are exempt from the latter. The client's own player only has to be there.

Every message of the room keeps a mirror:

* `Mirrors.move`: `S_Move` brings an object up to date.
* `Mirrors.remove`: `S_RemoveObject` takes an object away.
* `Mirrors.add`: `S_AddObject` brings new ones.
* `Mirrors.start`: `S_MyPlayer` starts a mirror of the own player alone.

The handlers write to the info of players once more, from their statistics; an info with a positive
hp up to the maximum and with some attack and defence survives that (`Plain`).
-/

namespace Zelda.Client

open Protocol

variable {o : GameObject} {info info₀ : ObjectInfo} {m : SceneManager} {pid id : ObjectId}
  {dirty dirty' : ObjectId → Prop} {view view' : ObjectId → Option ObjectInfo}

/-! ## One object -/

/-- The object is the one with this info: it has its id and its type, and is of its class. -/
structure Resembles (o : GameObject) (info : ObjectInfo) : Prop where
  objectid : o.info.objectid = info.objectid
  objecttype : o.info.objecttype = info.objecttype
  kind : o.kind.isPlayer = true ↔ info.objecttype = objectTypePlayer

/-- The object also shows what the info says, except for the state. -/
structure Shows (o : GameObject) (info : ObjectInfo) : Prop extends Resembles o info where
  dir : o.info.dir = info.dir
  cellPos : o.info.getCellPos = info.getCellPos
  hp : o.info.hp = info.hp
  maxhp : o.info.maxhp = info.maxhp
  attack : o.info.attack = info.attack
  defence : o.info.defence = info.defence

theorem Shows.congr (h : Shows o info) (hid : info₀.objectid = info.objectid)
    (htype : info₀.objecttype = info.objecttype) (hdir : info₀.dir = info.dir)
    (hcell : info₀.getCellPos = info.getCellPos) (hhp : info₀.hp = info.hp)
    (hmaxhp : info₀.maxhp = info.maxhp) (hattack : info₀.attack = info.attack)
    (hdefence : info₀.defence = info.defence) : Shows o info₀ where
  objectid := h.objectid.trans hid.symm
  objecttype := h.objecttype.trans htype.symm
  kind := by rw [htype]; exact h.kind
  dir := h.dir.trans hdir.symm
  cellPos := h.cellPos.trans hcell.symm
  hp := h.hp.trans hhp.symm
  maxhp := h.maxhp.trans hmaxhp.symm
  attack := h.attack.trans hattack.symm
  defence := h.defence.trans hdefence.symm

/-- The statistics of a player are taken over as they are. -/
def Plain (info : ObjectInfo) : Prop :=
  info.objecttype = objectTypePlayer →
    ¬ info.hp ≤ 0 ∧ info.hp ≤ info.maxhp ∧ info.attack ≠ 0 ∧ info.defence ≠ 0

/-- The object that is made of an info shows it. -/
theorem exists_addedObject (hplain : Plain info)
    (htype : info.objecttype = objectTypePlayer ∨ info.objecttype = objectTypeMonster) :
    ∃ o, addedObject info = some o ∧ Shows o info := by
  unfold addedObject
  by_cases hplayer : info.objecttype = objectTypePlayer
  · obtain ⟨hhp, hle, hattack, hdefence⟩ := hplain hplayer
    have hrefresh := GameObject.info_refreshStatFromInfo
      { spawnObject .player info.getCellPos with info := info } hhp hle hattack hdefence
    have hkind : (spawnObject .player info.getCellPos).kind = .player := by
      simp only [spawnObject, GameObject.kind_beginPlay, GameObject.kind_setCellPos,
        GameObject.kind_new]
    rw [if_pos hplayer]
    refine ⟨_, rfl, ?_⟩
    constructor
    · constructor
      · rw [GameObject.info_setState, GameObject.info_setDir, hrefresh]
        rfl
      · rw [GameObject.info_setState, GameObject.info_setDir, hrefresh]
        rfl
      · rw [GameObject.kind_setState, GameObject.kind_setDir, GameObject.kind_refreshStatFromInfo,
          hkind]
        exact iff_of_true rfl hplayer
    all_goals
      rw [GameObject.info_setState, GameObject.info_setDir, hrefresh]
      rfl
  · have hmonster : info.objecttype = objectTypeMonster := htype.resolve_left hplayer
    have hkind : (spawnObject .monster info.getCellPos).kind = .monster := by
      simp only [spawnObject, GameObject.kind_beginPlay, GameObject.kind_setCellPos,
        GameObject.kind_new]
    rw [if_neg hplayer, if_pos hmonster]
    refine ⟨_, rfl, ?_⟩
    constructor
    · constructor
      · rw [GameObject.info_setState, GameObject.info_setDir]
        rfl
      · rw [GameObject.info_setState, GameObject.info_setDir]
        rfl
      · rw [GameObject.kind_setState, GameObject.kind_setDir, hkind]
        exact iff_of_false Bool.false_ne_true hplayer
    all_goals
      rw [GameObject.info_setState, GameObject.info_setDir]
      rfl

namespace SceneManager

theorem int32Id_of_lt (h : id < 2 ^ 31) : int32Id id = id := by
  have hlt : (id : ℤ) < 2 ^ 31 := by exact_mod_cast h
  have hmod : (id : ℤ) % 2 ^ 64 = id := Int.emod_eq_of_lt (Int.natCast_nonneg id) (by omega)
  rw [int32Id, Int32.toInt_ofNat_of_lt h, hmod, Int.toNat_natCast]

theorem objectid_takeStat (info : ObjectInfo) (o : GameObject) :
    (takeStat info o).info.objectid = o.info.objectid := by
  unfold takeStat
  split <;> rfl

theorem objectid_movedObject (isMyPlayer : Bool) (info : ObjectInfo) (o : GameObject) :
    (movedObject isMyPlayer info o).info.objectid = o.info.objectid := by
  cases isMyPlayer with
  | true => exact objectid_takeStat info o
  | false =>
    show ((((takeStat info o).setDir info.dir).setState info.state).setCellPos
      info.getCellPos).info.objectid = _
    rw [GameObject.info_setCellPos, GameObject.info_setState, GameObject.info_setDir]
    exact objectid_takeStat info o

theorem getMyPlayerId_handleSMove (m : SceneManager) (info : ObjectInfo) :
    (m.handleSMove info).getMyPlayerId = m.getMyPlayerId := by
  unfold handleSMove
  split <;> rfl

end SceneManager

theorem Resembles.takeStat (h : Resembles o info) (hplain : Plain info) :
    (SceneManager.takeStat info o).info = { o.info with
      attack := info.attack, defence := info.defence, hp := info.hp, maxhp := info.maxhp } := by
  unfold SceneManager.takeStat
  split
  · rename_i hkind
    obtain ⟨hhp, hle, hattack, hdefence⟩ := hplain (h.kind.1 hkind)
    exact GameObject.info_refreshStatFromInfo _ hhp hle hattack hdefence
  · rfl

/-- A move shows what it says. -/
theorem Resembles.movedObject (h : Resembles o info) (hplain : Plain info) :
    Shows (SceneManager.movedObject false info o) info := by
  have hinfo : (SceneManager.movedObject false info o).info =
      (((SceneManager.takeStat info o).info.setDir info.dir).setState info.state).setCellPos
        info.getCellPos := by
    show ((((SceneManager.takeStat info o).setDir info.dir).setState info.state).setCellPos
      info.getCellPos).info = _
    rw [GameObject.info_setCellPos, GameObject.info_setState, GameObject.info_setDir]
  have hkind := SceneManager.kind_movedObject false info o
  rw [h.takeStat hplain] at hinfo
  constructor
  · constructor
    · rw [hinfo]
      exact h.objectid
    · rw [hinfo]
      exact h.objecttype
    · rw [hkind]
      exact h.kind
  all_goals
    rw [hinfo]
    rfl

/-! ## The scene -/

/-- The scene has one object for every id of the view, and every object but the own player is the
one with the info of its id and shows it, unless its id is dirty. -/
structure Mirrors (pid : ObjectId) (dirty : ObjectId → Prop) (m : SceneManager)
    (view : ObjectId → Option ObjectInfo) : Prop where
  myPlayer : m.myPlayer = some pid
  nodup : m.scene.ids.Nodup
  mem_ids : ∀ id, id ∈ m.scene.ids ↔ (view id).isSome = true
  shows : ∀ {id info o}, view id = some info → id ≠ pid → m.scene.getObject id = some o →
    Resembles o info ∧ (¬ dirty id → Shows o info)

namespace Mirrors

theorem mono (h : Mirrors pid dirty m view) (hdirty : ∀ id, dirty id → dirty' id) :
    Mirrors pid dirty' m view where
  myPlayer := h.myPlayer
  nodup := h.nodup
  mem_ids := h.mem_ids
  shows hview hne ho := (h.shows hview hne ho).imp_right fun hs hd => hs fun h => hd (hdirty _ h)

theorem getMyPlayerId (h : Mirrors pid dirty m view) : m.getMyPlayerId = pid := by
  rw [SceneManager.getMyPlayerId, h.myPlayer, Option.getD_some]

/-- The info of one object changes without a message: its id is dirty, or nothing that can be seen
has changed. -/
theorem change (h : Mirrors pid dirty m view) (hview : view id = some info₀)
    (hid : info.objectid = info₀.objectid) (htype : info.objecttype = info₀.objecttype)
    (hshows : ∀ o, Shows o info₀ → dirty id ∨ Shows o info) :
    Mirrors pid dirty m (Function.update view id (some info)) where
  myPlayer := h.myPlayer
  nodup := h.nodup
  mem_ids id' := by
    rw [h.mem_ids]
    rcases eq_or_ne id' id with rfl | hne
    · rw [Function.update_self, hview]
      rfl
    · rw [Function.update_of_ne hne]
  shows {id' info' o} hview' hne ho := by
    rcases eq_or_ne id' id with rfl | hid'
    · rw [Function.update_self] at hview'
      obtain rfl := Option.some.inj hview'
      obtain ⟨hres, hs⟩ := h.shows hview hne ho
      refine ⟨⟨hres.objectid.trans hid.symm, hres.objecttype.trans htype.symm, ?_⟩, fun hd => ?_⟩
      · rw [htype]
        exact hres.kind
      · exact (hshows o (hs hd)).resolve_left hd
    · rw [Function.update_of_ne hid'] at hview'
      exact h.shows hview' hne ho

/-- **`S_Move`**: the object has the info of the message, and its id is not dirty any more. -/
theorem move (h : Mirrors pid dirty m view) (hview : view id = some info₀)
    (hid : info.objectid = id) (hid₀ : info₀.objectid = id)
    (htype : info.objecttype = info₀.objecttype) (hplain : Plain info) :
    Mirrors pid (fun id' => dirty id' ∧ id' ≠ id) (m.handleSMove info)
      (Function.update view id (some info)) := by
  have hmem : id ∈ m.scene.ids := (h.mem_ids id).2 (by rw [hview]; rfl)
  obtain ⟨o₀, ho₀⟩ := DevScene.exists_getObject hmem
  have hmove : m.handleSMove info = ⟨m.scene.modifyObject id
      (SceneManager.movedObject (decide (pid = id)) info), m.myPlayer⟩ := by
    rw [SceneManager.handleSMove, hid, ho₀, h.getMyPlayerId]
  rw [hmove]
  constructor
  · exact h.myPlayer
  · rw [DevScene.ids_modifyObject (SceneManager.objectid_movedObject _ info)]
    exact h.nodup
  · intro id'
    rw [DevScene.ids_modifyObject (SceneManager.objectid_movedObject _ info), h.mem_ids]
    rcases eq_or_ne id' id with rfl | hne
    · rw [Function.update_self, hview]
      rfl
    · rw [Function.update_of_ne hne]
  · intro id' info' o hview' hne ho
    rw [DevScene.getObject_modifyObject (SceneManager.objectid_movedObject _ info)] at ho
    rcases eq_or_ne id' id with rfl | hid'
    · rw [Function.update_self] at hview'
      obtain rfl := Option.some.inj hview'
      rw [if_pos rfl, ho₀, decide_eq_false hne.symm] at ho
      obtain rfl := Option.some.inj ho
      obtain ⟨hres, -⟩ := h.shows hview hne ho₀
      have hres' : Resembles o₀ info := by
        refine ⟨hres.objectid.trans (hid₀.trans hid.symm), hres.objecttype.trans htype.symm, ?_⟩
        rw [htype]
        exact hres.kind
      have hshows := hres'.movedObject hplain
      exact ⟨hshows.toResembles, fun _ => hshows⟩
    · rw [Function.update_of_ne hid'] at hview'
      rw [if_neg hid'] at ho
      obtain ⟨hres, hs⟩ := h.shows hview' hne ho
      exact ⟨hres, fun hd => hs fun hdirty => hd ⟨hdirty, hid'⟩⟩

/-- A scene that mirrors a view after an `S_Move` had the object before it, of the same class. -/
theorem exists_getObject_of_handleSMove (h : Mirrors pid dirty (m.handleSMove info) view)
    (hview : view id = some info) (hid : info.objectid = id) (hne : id ≠ pid) :
    ∃ o, m.scene.getObject id = some o ∧
      (o.kind.isPlayer = true ↔ info.objecttype = objectTypePlayer) := by
  have hmem : id ∈ (m.handleSMove info).scene.ids := (h.mem_ids id).2 (by rw [hview]; rfl)
  obtain ⟨o', ho'⟩ := DevScene.exists_getObject hmem
  have hkind := (h.shows hview hne ho').1.kind
  rw [SceneManager.handleSMove, hid] at ho'
  split at ho'
  · rename_i hnone
    cases hnone.symm.trans ho'
  · rename_i o ho
    rw [DevScene.getObject_modifyObject (SceneManager.objectid_movedObject _ info), if_pos rfl,
      ho] at ho'
    obtain rfl := Option.some.inj ho'
    refine ⟨o, ho, ?_⟩
    rw [← hkind, SceneManager.kind_movedObject]

/-- **`S_RemoveObject`** -/
theorem remove (h : Mirrors pid dirty m view) (hview : view id = some info₀) (hid : id < 2 ^ 31) :
    Mirrors pid dirty (m.handleSRemoveObject [id]) (Function.update view id none) := by
  have hmem : id ∈ m.scene.ids := (h.mem_ids id).2 (by rw [hview]; rfl)
  obtain ⟨o₀, ho₀⟩ := DevScene.exists_getObject hmem
  have hremove : m.handleSRemoveObject [id] = { m with scene := m.scene.removeObject id } := by
    show m.removeObject id = _
    rw [SceneManager.removeObject, SceneManager.int32Id_of_lt hid, ho₀]
  rw [hremove]
  constructor
  · exact h.myPlayer
  · rw [DevScene.ids_removeObject]
    exact h.nodup.erase id
  · intro id'
    rw [DevScene.ids_removeObject, h.nodup.mem_erase_iff, h.mem_ids]
    rcases eq_or_ne id' id with rfl | hne
    · rw [Function.update_self]
      simp
    · rw [Function.update_of_ne hne]
      exact and_iff_right hne
  · intro id' info' o hview' hne ho
    rw [DevScene.getObject_removeObject h.nodup] at ho
    rcases eq_or_ne id' id with rfl | hid'
    · rw [Function.update_self] at hview'
      cases hview'
    · rw [Function.update_of_ne hid'] at hview'
      rw [if_neg hid'] at ho
      exact h.shows hview' hne ho

/-- One object of **`S_AddObject`** -/
theorem addObject (h : Mirrors pid dirty m view) (hid : info.objectid = id) (hne : id ≠ pid)
    (hview : view id = none) (hplain : Plain info)
    (htype : info.objecttype = objectTypePlayer ∨ info.objecttype = objectTypeMonster) :
    Mirrors pid dirty (m.addObject info) (Function.update view id (some info)) := by
  have hnew : id ∉ m.scene.ids := fun hmem => by
    rw [h.mem_ids, hview] at hmem
    cases hmem
  obtain ⟨o₀, ho₀, hshows⟩ := exists_addedObject hplain htype
  have hoid : o₀.info.objectid = id := hshows.objectid.trans hid
  have hadd : m.addObject info = { m with scene := m.scene.addActor o₀ } := by
    rw [SceneManager.addObject, h.getMyPlayerId, hid, if_neg hne.symm, ho₀]
  rw [hadd]
  constructor
  · exact h.myPlayer
  · rw [DevScene.ids_addActor, hoid]
    rw [← List.concat_eq_append]
    exact h.nodup.concat hnew
  · intro id'
    rw [DevScene.ids_addActor, hoid, List.mem_append, List.mem_singleton, h.mem_ids]
    rcases eq_or_ne id' id with rfl | hid'
    · rw [Function.update_self]
      simp
    · rw [Function.update_of_ne hid']
      exact or_iff_left hid'
  · intro id' info' o hview' hne' ho
    rw [DevScene.getObject_addActor (by rw [hoid]; exact hnew), hoid] at ho
    rcases eq_or_ne id' id with rfl | hid'
    · rw [Function.update_self] at hview'
      obtain rfl := Option.some.inj hview'
      rw [if_pos rfl] at ho
      obtain rfl := Option.some.inj ho
      exact ⟨hshows.toResembles, fun _ => hshows⟩
    · rw [Function.update_of_ne hid'] at hview'
      rw [if_neg hid'] at ho
      exact h.shows hview' hne' ho

/-- The client skips its own player. -/
theorem addObject_self (h : Mirrors pid dirty m view) (hid : info.objectid = pid) :
    m.addObject info = m := by
  rw [SceneManager.addObject, h.getMyPlayerId, hid, if_pos rfl]

/-- **`S_AddObject`** with any number of new objects. -/
theorem addObjects {infos : List ObjectInfo} (h : Mirrors pid dirty m view)
    (hnodup : (infos.map (·.objectid)).Nodup)
    (hnew : ∀ info ∈ infos, info.objectid ≠ pid ∧ view info.objectid = none ∧ Plain info ∧
      (info.objecttype = objectTypePlayer ∨ info.objecttype = objectTypeMonster))
    (hin : ∀ info ∈ infos, view' info.objectid = some info)
    (hout : ∀ id, id ∉ infos.map (·.objectid) → view' id = view id) :
    Mirrors pid dirty (m.handleSAddObject infos) view' := by
  induction infos generalizing m view with
  | nil =>
    have hsame : view' = view := funext fun id => hout id List.not_mem_nil
    rw [hsame]
    exact h
  | cons info infos ih =>
    obtain ⟨hne, hnone, hplain, htype⟩ := hnew info List.mem_cons_self
    rw [List.map_cons, List.nodup_cons] at hnodup
    refine ih (h.addObject rfl hne hnone hplain htype) hnodup.2 ?_ ?_ ?_
    · intro info' hmem
      obtain ⟨hne', hnone', hrest⟩ := hnew info' (List.mem_cons_of_mem _ hmem)
      refine ⟨hne', ?_, hrest⟩
      rw [Function.update_of_ne, hnone']
      intro heq
      exact hnodup.1 (heq ▸ List.mem_map_of_mem hmem)
    · exact fun info' hmem => hin info' (List.mem_cons_of_mem _ hmem)
    · intro id hid
      rcases eq_or_ne id info.objectid with rfl | hne'
      · rw [Function.update_self, hin info List.mem_cons_self]
      · rw [Function.update_of_ne hne']
        refine hout id fun hmem => ?_
        rw [List.map_cons, List.mem_cons] at hmem
        exact hmem.elim hne' hid

/-- **`S_MyPlayer`** -/
theorem start (hid : info.objectid = pid) : Mirrors pid dirty
    (({} : SceneManager).handleSMyPlayer info)
    (Function.update (fun _ => none) pid (some info)) where
  myPlayer := congrArg some hid
  nodup := List.nodup_singleton info.objectid
  mem_ids id := by
    have hids : (({} : SceneManager).handleSMyPlayer info).scene.ids = [info.objectid] := rfl
    rw [hids, hid, List.mem_singleton]
    rcases eq_or_ne id pid with rfl | hne
    · rw [Function.update_self]
      exact iff_of_true rfl rfl
    · rw [Function.update_of_ne hne]
      exact iff_of_false hne Bool.false_ne_true
  shows {id info' o} hview hne _ := by
    rw [Function.update_of_ne hne] at hview
    cases hview

end Mirrors

end Zelda.Client
