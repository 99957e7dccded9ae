import Zelda.Client.DevScene

/-!
# What `Handle_S_RemoveObject` removes

`DevScene::Handle_S_RemoveObject` keeps each id of the message in an `int32` before it looks for the
object with it, and `GetObject` takes a `uint64`. So it looks for the sign extension of the lower
half of the id.

Main result: `removesExactly_iff`, when the objects that go are those that the message names.
-/

namespace Zelda.Client

open Protocol SceneManager

variable {m : SceneManager} {scene : DevScene} {id : ObjectId} {ids : List ObjectId}

/-! ## Ids that an `int32` stands for -/

/-- The id is the sign extension of its lower half. -/
def FitsInt32 (id : ℕ) : Prop := id < 2 ^ 31 ∨ 2 ^ 64 - 2 ^ 31 ≤ id ∧ id < 2 ^ 64

instance : DecidablePred FitsInt32 := fun _ => inferInstanceAs (Decidable (_ ∨ _))

theorem fitsInt32_int32Id (id : ℕ) : FitsInt32 (int32Id id) := by
  have h₁ := (Int32.ofNat id).le_toInt
  have h₂ := (Int32.ofNat id).toInt_lt
  have hid : int32Id id = ((Int32.ofNat id).toInt % 2 ^ 64).toNat := rfl
  rw [hid, FitsInt32]
  omega

theorem toNat_bmod_emod {n : ℕ} (h : FitsInt32 n) :
    ((n : ℤ).bmod (2 ^ 32) % 2 ^ 64).toNat = n := by
  rw [FitsInt32] at h
  rw [Int.bmod_def]
  push_cast
  split <;> omega

theorem int32Id_eq_self_iff {id : ℕ} : int32Id id = id ↔ FitsInt32 id := by
  constructor
  · intro h
    have hfits := fitsInt32_int32Id id
    rwa [h] at hfits
  · intro h
    have hcast : (Int32.ofNat id).toInt = (id : ℤ).bmod (2 ^ 32) := Int32.toInt_ofNat
    rw [int32Id, hcast]
    exact toNat_bmod_emod h

/-! ## Removing -/

theorem DevScene.mapObjects_mapObjects (f g : List Actor → List Actor) :
    (scene.mapObjects f).mapObjects g = scene.mapObjects fun l => g (f l) := by
  rw [mapObjects, objects_mapObjects, mapObjects, mapObjects, Function.update_idem]

theorem DevScene.mapObjects_eq_iff {f g : List Actor → List Actor} :
    scene.mapObjects f = scene.mapObjects g ↔ f scene.objects = g scene.objects := by
  constructor
  · intro h
    have hobjects := congrArg objects h
    rwa [objects_mapObjects, objects_mapObjects] at hobjects
  · intro h
    rw [mapObjects, mapObjects, h]

/-- The actor is an object with one of these ids. -/
def Actor.Among (ids : List ObjectId) (a : Actor) : Prop := ∃ id ∈ ids, a.objectid? = some id

instance (ids : List ObjectId) : DecidablePred (Actor.Among ids) := fun _ =>
  inferInstanceAs (Decidable (∃ _ ∈ _, _))

/-- The scene without the objects with these ids. -/
def DevScene.without (scene : DevScene) (ids : List ObjectId) : DevScene :=
  scene.mapObjects fun l => l.filter fun a => ¬ a.Among ids

theorem Actor.among_append {a : Actor} {ids ids' : List ObjectId} :
    a.Among (ids ++ ids') ↔ a.Among ids ∨ a.Among ids' := by
  simp only [Among, List.mem_append, or_and_right, exists_or]

theorem DevScene.without_nil : scene.without [] = scene := by
  have hall : (scene.objects.filter fun a => ¬ a.Among []) = scene.objects := by
    refine List.filter_eq_self.2 fun a _ => decide_eq_true ?_
    rintro ⟨id, hid, -⟩
    cases hid
  rw [without, mapObjects, hall]
  exact congrArg mk (Function.update_eq_self _ _)

theorem DevScene.without_without (ids ids' : List ObjectId) :
    (scene.without ids).without ids' = scene.without (ids ++ ids') := by
  rw [without, without, mapObjects_mapObjects]
  refine mapObjects_eq_iff.2 ?_
  rw [List.filter_filter]
  refine List.filter_congr fun a _ => ?_
  rw [← Bool.decide_and, decide_eq_decide, Actor.among_append]
  tauto

theorem ids_without_sublist (scene : DevScene) (ids : List ObjectId) :
    (scene.without ids).ids.Sublist scene.ids := by
  rw [DevScene.ids, DevScene.without, DevScene.objects_mapObjects]
  exact List.filter_sublist.filterMap Actor.objectid?

theorem scene_removeObject (hnodup : m.scene.ids.Nodup) (id : ObjectId) :
    (m.removeObject id).scene = m.scene.without [int32Id id] := by
  have hfilter : m.scene.removeObject (int32Id id) = m.scene.without [int32Id id] := by
    refine DevScene.mapObjects_eq_iff.2 ((Keyed.remove_eq_filter hnodup).trans ?_)
    exact List.filter_congr fun a _ => by simp [Actor.Among]
  unfold removeObject
  split
  · exact hfilter
  · rename_i hnone
    have hkeep : m.scene.removeObject (int32Id id) = m.scene := by
      rw [DevScene.removeObject, DevScene.mapObjects,
        Keyed.remove_of_not_mem (DevScene.getObject_eq_none.1 hnone)]
      exact congrArg DevScene.mk (Function.update_eq_self _ _)
    rw [← hfilter, hkeep]

/-- **What the handler leaves**, for any list of ids. -/
theorem scene_handleSRemoveObject (hnodup : m.scene.ids.Nodup) (ids : List ObjectId) :
    (m.handleSRemoveObject ids).scene = m.scene.without (ids.map int32Id) := by
  induction ids generalizing m with
  | nil => exact DevScene.without_nil.symm
  | cons id ids ih =>
    have hscene := scene_removeObject hnodup id
    have hnodup' : (m.removeObject id).scene.ids.Nodup := by
      rw [hscene]
      exact hnodup.sublist (ids_without_sublist _ _)
    calc (m.handleSRemoveObject (id :: ids)).scene
        = (m.removeObject id).scene.without (ids.map int32Id) := ih hnodup'
      _ = m.scene.without ([int32Id id] ++ ids.map int32Id) := by
        rw [hscene, DevScene.without_without]

/-- The objects that go are those that the message names, and nothing else changes. -/
def RemovesExactly (m : SceneManager) (ids : List ObjectId) : Prop :=
  (m.handleSRemoveObject ids).scene = m.scene.without ids

theorem filter_eq_filter_iff {α : Type*} {p q : α → Bool} {l : List α} :
    l.filter p = l.filter q ↔ ∀ a ∈ l, p a = q a := by
  constructor
  · intro h a ha
    have hmem : a ∈ l.filter p ↔ a ∈ l.filter q := by rw [h]
    rw [List.mem_filter, List.mem_filter, and_iff_right ha, and_iff_right ha] at hmem
    exact Bool.eq_iff_iff.2 hmem
  · exact List.filter_congr

/-- **A removal is exact** if every id of the message that is in the scene is one that an `int32`
stands for, and no other object has an id that the `int32` of one of the message stands for. -/
theorem removesExactly_iff (m : SceneManager) (ids : List ObjectId)
    (hnodup : m.scene.ids.Nodup) : RemovesExactly m ids ↔
      (∀ id ∈ ids, id ∈ m.scene.ids → FitsInt32 id) ∧
        ∀ id ∈ ids, int32Id id ∈ m.scene.ids → int32Id id ∈ ids := by
  rw [RemovesExactly, scene_handleSRemoveObject hnodup, DevScene.without, DevScene.without,
    DevScene.mapObjects_eq_iff, filter_eq_filter_iff]
  simp only [decide_eq_decide, not_iff_not]
  have hamong : ∀ {ids id a}, a.objectid? = some id → (Actor.Among ids a ↔ id ∈ ids) := by
    intro ids id a ha
    simp [Actor.Among, ha]
  constructor
  · intro h
    have hids : ∀ id ∈ m.scene.ids, id ∈ ids.map int32Id ↔ id ∈ ids := by
      intro id hid
      obtain ⟨a, ha, hkey⟩ := Keyed.mem_keys.1 hid
      rw [← hamong hkey, ← hamong hkey]
      exact h a ha
    refine ⟨fun id hid hmem => ?_, fun id hid hmem => ?_⟩
    · obtain ⟨id', -, rfl⟩ := List.mem_map.1 ((hids id hmem).2 hid)
      exact fitsInt32_int32Id id'
    · exact (hids _ hmem).1 (List.mem_map_of_mem hid)
  · rintro ⟨hfits, hother⟩ a ha
    cases hkey : a.objectid? with
    | none => simp [Actor.Among, hkey]
    | some id =>
      have hmem : id ∈ m.scene.ids := Keyed.mem_keys.2 ⟨a, ha, hkey⟩
      rw [hamong hkey, hamong hkey, List.mem_map]
      constructor
      · rintro ⟨id', hid', rfl⟩
        exact hother id' hid' hmem
      · intro hid
        exact ⟨id, hid, int32Id_eq_self_iff.2 (hfits id hid hmem)⟩

/-- A scene with one monster. -/
def monsterScene (id : ObjectId) : SceneManager where
  scene := DevScene.init.addActor { kind := .monster, info := { objectid := id } }

theorem removesExactly_iff_monsterScene :
    RemovesExactly (monsterScene 7) [3, 7, 7] ↔
      (∀ id ∈ [3, 7, 7], id ∈ (monsterScene 7).scene.ids → FitsInt32 id) ∧
        ∀ id ∈ [3, 7, 7], int32Id id ∈ (monsterScene 7).scene.ids → int32Id id ∈ [3, 7, 7] :=
  removesExactly_iff (monsterScene 7) [3, 7, 7] (by decide)

/-- **An object with a large id stays** when the server says that it is gone. -/
theorem not_removesExactly_monsterScene :
    (monsterScene (2 ^ 31)).scene.ids.Nodup ∧
      ¬ RemovesExactly (monsterScene (2 ^ 31)) [2 ^ 31] := by
  refine ⟨by decide, fun h => ?_⟩
  have hids := congrArg DevScene.ids h
  exact absurd hids (by decide)

end Zelda.Client
