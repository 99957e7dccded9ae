import Mathlib.Tactic

/-!
# Lists searched by a key

A list whose entries may have a key, and which is searched from the front for the first entry with a
given key: `lookup` finds it, `adjust` changes it and `remove` takes it out. As long as no two
entries have the same key (`(keys key l).Nodup`), the list is a map from keys to entries.

* `lookup_adjust`, `keys_adjust`: an adjustment changes one entry and no key.
* `lookup_remove`, `keys_remove`: a removal takes one key out.
* `lookup_append`, `keys_append`: new entries are found if their keys are new.
-/

namespace Zelda.Keyed

variable {α κ : Type*} (key : α → Option κ)

/-- The keys in use. -/
def keys (l : List α) : List κ := l.filterMap key

section

variable {key} {k : κ} {a : α} {l l' : List α}

theorem keys_cons : keys key (a :: l) = (key a).toList ++ keys key l := by
  cases h : key a <;> simp [keys, h]

theorem keys_append : keys key (l ++ l') = keys key l ++ keys key l' := List.filterMap_append

theorem mem_keys : k ∈ keys key l ↔ ∃ a ∈ l, key a = some k := List.mem_filterMap

end

variable [DecidableEq κ]

/-- The first entry with the key. -/
def lookup (k : κ) (l : List α) : Option α := l.find? fun a => key a = some k

/-- Changes the first entry with the key. -/
def adjust (k : κ) (f : α → α) : List α → List α
  | [] => []
  | a :: l => if key a = some k then f a :: l else a :: adjust k f l

/-- Takes the first entry with the key out. -/
def remove (k : κ) (l : List α) : List α := l.eraseP fun a => key a = some k

variable {key} {k k' : κ} {a : α} {l l' : List α} {f : α → α}

theorem lookup_cons : lookup key k (a :: l) = if key a = some k then some a else lookup key k l := by
  simp only [lookup, List.find?_cons]
  by_cases h : key a = some k <;> simp [h]

theorem lookup_append : lookup key k (l ++ l') = (lookup key k l).or (lookup key k l') :=
  List.find?_append

theorem key_of_lookup (h : lookup key k l = some a) : key a = some k := by
  have hp := List.find?_some h
  exact of_decide_eq_true hp

theorem lookup_eq_none : lookup key k l = none ↔ k ∉ keys key l := by
  rw [lookup, List.find?_eq_none, mem_keys]
  simp

/-- Without repeated keys, every entry is the one its key finds. -/
theorem lookup_of_mem (hnodup : (keys key l).Nodup) (ha : a ∈ l) (hk : key a = some k) :
    lookup key k l = some a := by
  induction l with
  | nil => cases ha
  | cons b l ih =>
    rw [keys_cons, List.nodup_append] at hnodup
    obtain ⟨-, hl, hdisj⟩ := hnodup
    rw [lookup_cons]
    rcases List.mem_cons.1 ha with rfl | ha
    · exact if_pos hk
    · have hne : key b ≠ some k := by
        intro hb
        exact hdisj k (by rw [hb]; exact List.mem_singleton_self k) k (mem_keys.2 ⟨a, ha, hk⟩) rfl
      rw [if_neg hne]
      exact ih hl ha

/-! ## Adjusting -/

theorem keys_adjust (hf : ∀ a, key a = some k → key (f a) = some k) :
    keys key (adjust key k f l) = keys key l := by
  induction l with
  | nil => rfl
  | cons a l ih =>
    rw [adjust]
    split
    · rename_i ha
      rw [keys_cons, keys_cons, hf a ha, ha]
    · rw [keys_cons, keys_cons, ih]

theorem lookup_adjust (hf : ∀ a, key a = some k → key (f a) = some k) :
    lookup key k' (adjust key k f l) =
      if k' = k then (lookup key k l).map f else lookup key k' l := by
  induction l with
  | nil => simp [adjust, lookup]
  | cons a l ih =>
    by_cases ha : key a = some k
    · rw [adjust, if_pos ha, lookup_cons, hf a ha, lookup_cons, if_pos ha, Option.map_some]
      by_cases hk : k' = k
      · rw [if_pos hk, if_pos (congrArg some hk.symm)]
      · have hne : some k ≠ some k' := fun heq => hk (Option.some.inj heq).symm
        rw [if_neg hk, if_neg hne, lookup_cons, ha, if_neg hne]
    · rw [adjust, if_neg ha, lookup_cons, ih, lookup_cons, if_neg ha]
      by_cases hk : k' = k
      · rw [if_pos hk, if_pos hk, hk, if_neg ha]
      · rw [if_neg hk, if_neg hk, lookup_cons]

theorem mem_adjust (h : a ∈ adjust key k f l) : a ∈ l ∨ ∃ b ∈ l, a = f b := by
  induction l with
  | nil => cases h
  | cons b l ih =>
    rw [adjust] at h
    split at h
    · rcases List.mem_cons.1 h with rfl | h
      · exact .inr ⟨b, List.mem_cons_self, rfl⟩
      · exact .inl (List.mem_cons_of_mem b h)
    · rcases List.mem_cons.1 h with rfl | h
      · exact .inl List.mem_cons_self
      · rcases ih h with h | ⟨c, hc, rfl⟩
        · exact .inl (List.mem_cons_of_mem b h)
        · exact .inr ⟨c, List.mem_cons_of_mem b hc, rfl⟩

/-- A change of an entry that is found by another key. -/
theorem keys_adjust_of_key {κ' : Type*} {key' : α → Option κ'} (hf : ∀ a, key' (f a) = key' a) :
    keys key' (adjust key k f l) = keys key' l := by
  induction l with
  | nil => rfl
  | cons a l ih =>
    rw [adjust]
    split
    · rw [keys_cons, keys_cons, hf a]
    · rw [keys_cons, keys_cons, ih]

/-! ## Removing -/

/-- An entry that is found by another key is taken out. -/
theorem keys_remove_sublist {κ' : Type*} {key' : α → Option κ'} :
    (keys key' (remove key k l)).Sublist (keys key' l) := List.eraseP_sublist.filterMap key'

theorem mem_of_mem_remove (h : a ∈ remove key k l) : a ∈ l := List.mem_of_mem_eraseP h

theorem remove_cons : remove key k (a :: l) = if key a = some k then l else a :: remove key k l := by
  rw [remove, List.eraseP_cons]
  by_cases h : key a = some k <;> simp [h, remove]

theorem keys_remove : keys key (remove key k l) = (keys key l).erase k := by
  induction l with
  | nil => rfl
  | cons a l ih =>
    rw [remove_cons, keys_cons]
    by_cases ha : key a = some k
    · rw [if_pos ha, ha, Option.toList_some, List.singleton_append, List.erase_cons_head]
    · have hnot : k ∉ (key a).toList := fun hk => ha (Option.mem_toList.1 hk)
      rw [if_neg ha, keys_cons, List.erase_append_right _ hnot, ih]

theorem lookup_remove (hnodup : (keys key l).Nodup) :
    lookup key k' (remove key k l) = if k' = k then none else lookup key k' l := by
  split
  · rename_i hk
    rw [hk, lookup_eq_none, keys_remove]
    exact hnodup.not_mem_erase
  · rename_i hk
    clear hnodup
    induction l with
    | nil => rfl
    | cons a l ih =>
      rw [remove_cons, lookup_cons]
      by_cases ha : key a = some k
      · have hne : key a ≠ some k' := fun h => hk (Option.some.inj (h.symm.trans ha))
        rw [if_pos ha, if_neg hne]
      · rw [if_neg ha, lookup_cons, ih]

/-- Without repeated keys, what is left are the entries without the key. -/
theorem remove_eq_filter (hnodup : (keys key l).Nodup) :
    remove key k l = l.filter fun a => key a ≠ some k := by
  induction l with
  | nil => rfl
  | cons a l ih =>
    rw [keys_cons, List.nodup_append] at hnodup
    obtain ⟨-, hl, hdisj⟩ := hnodup
    rw [remove_cons]
    by_cases ha : key a = some k
    · have hrest : ∀ b ∈ l, key b ≠ some k := by
        intro b hb hk
        exact hdisj k (by rw [ha]; exact List.mem_singleton_self k) k (mem_keys.2 ⟨b, hb, hk⟩) rfl
      rw [if_pos ha, List.filter_cons_of_neg (by simp [ha]), List.filter_eq_self.2]
      exact fun b hb => decide_eq_true (hrest b hb)
    · rw [if_neg ha, List.filter_cons_of_pos (by simp [ha]), ih hl]

theorem remove_of_not_mem (h : k ∉ keys key l) : remove key k l = l := by
  refine List.eraseP_of_forall_not fun a ha hk => h ?_
  exact mem_keys.2 ⟨a, ha, of_decide_eq_true hk⟩

end Zelda.Keyed
