import Mathlib.Data.List.Nodup

/-!
# Maps in the order of insertion

A map as the list of its entries in the order their keys came in. Writing a key
that is there keeps its place, and iterating over the map reads the list.
-/

namespace InsertionMap

variable {κ ν : Type} [DecidableEq κ]

def keys (m : List (κ × ν)) : List κ := m.map Prod.fst

def get (k : κ) : List (κ × ν) → Option ν
  | [] => none
  | entry :: rest => if entry.1 = k then some entry.2 else get k rest

def set (k : κ) (v : ν) : List (κ × ν) → List (κ × ν)
  | [] => [(k, v)]
  | entry :: rest => if entry.1 = k then (k, v) :: rest else entry :: set k v rest

def delete (k : κ) (m : List (κ × ν)) : List (κ × ν) := m.filter (·.1 ≠ k)

variable {m : List (κ × ν)} {k k' : κ} {v : ν}

theorem mem_keys_of_get (h : get k m = some v) : k ∈ keys m := by
  induction m with
  | nil => cases h
  | cons entry rest ih =>
      rw [get] at h
      split at h
      · next hentry => exact List.mem_map.mpr ⟨entry, List.mem_cons_self, hentry⟩
      · exact List.mem_cons_of_mem _ (ih h)

theorem mem_of_get (h : get k m = some v) : (k, v) ∈ m := by
  induction m with
  | nil => cases h
  | cons entry rest ih =>
      rw [get] at h
      split at h
      · next hentry =>
          have hvalue : entry.2 = v := Option.some.inj h
          rw [← hentry, ← hvalue]
          exact List.mem_cons_self
      · exact List.mem_cons_of_mem _ (ih h)

theorem exists_get (h : k ∈ keys m) : ∃ v, get k m = some v := by
  induction m with
  | nil => cases h
  | cons entry rest ih =>
      rw [get]
      split
      · exact ⟨entry.2, rfl⟩
      · next hentry =>
          rcases List.mem_cons.mp h with heq | hrest
          · exact absurd heq.symm hentry
          · exact ih hrest

theorem get_eq_none : get k m = none ↔ k ∉ keys m := by
  constructor
  · intro hnone hmem
    obtain ⟨v, hget⟩ := exists_get hmem
    rw [hget] at hnone
    cases hnone
  · intro hmem
    cases hget : get k m with
    | none => rfl
    | some v => exact absurd (mem_keys_of_get hget) hmem

@[simp]
theorem get_set_self : get k (set k v m) = some v := by
  induction m with
  | nil => simp [set, get]
  | cons entry rest ih =>
      rw [set]
      split
      · simp [get]
      · next hentry => rw [get, if_neg hentry, ih]

theorem get_set_other (hother : k' ≠ k) : get k' (set k v m) = get k' m := by
  induction m with
  | nil => simp [set, get, hother.symm]
  | cons entry rest ih =>
      rw [set]
      split
      · next hentry => simp [get, hentry, hother.symm]
      · rw [get, get, ih]

@[simp]
theorem get_delete_self : get k (delete k m) = none := by
  rw [get_eq_none, keys, delete]
  simp

theorem get_delete_other (hother : k' ≠ k) : get k' (delete k m) = get k' m := by
  induction m with
  | nil => rfl
  | cons entry rest ih =>
      rw [delete, List.filter_cons]
      split
      · rw [get, get]
        exact congrArg _ ih
      · next hentry =>
          have hkey : entry.1 = k := by simpa using hentry
          rw [get, if_neg (by rw [hkey]; exact hother.symm)]
          exact ih

theorem mem_of_mem_set {entry : κ × ν} (h : entry ∈ set k v m) : entry = (k, v) ∨ entry ∈ m := by
  induction m with
  | nil => exact .inl (List.mem_singleton.mp h)
  | cons first rest ih =>
      rw [set] at h
      split at h
      · exact (List.mem_cons.mp h).imp_right (List.mem_cons_of_mem _)
      · rcases List.mem_cons.mp h with rfl | h
        · exact .inr List.mem_cons_self
        · exact (ih h).imp_right (List.mem_cons_of_mem _)

@[simp]
theorem mem_keys_set : k' ∈ keys (set k v m) ↔ k' = k ∨ k' ∈ keys m := by
  by_cases heq : k' = k
  · subst heq
    simp [mem_keys_of_get (@get_set_self _ _ _ m k' v)]
  · rw [← not_iff_not, ← get_eq_none, get_set_other heq, get_eq_none]
    simp [heq]

@[simp]
theorem mem_keys_delete : k' ∈ keys (delete k m) ↔ k' ≠ k ∧ k' ∈ keys m := by
  by_cases heq : k' = k
  · subst heq
    simpa using get_eq_none.mp (@get_delete_self _ _ _ m k')
  · rw [← not_iff_not, ← get_eq_none, get_delete_other heq, get_eq_none]
    simp [heq]

theorem nodup_keys_set (h : (keys m).Nodup) : (keys (set k v m)).Nodup := by
  induction m with
  | nil => exact List.nodup_singleton k
  | cons entry rest ih =>
      have hrest : (keys rest).Nodup := (List.nodup_cons.mp h).2
      rw [set]
      split
      · next hentry =>
          rw [keys, List.map_cons, List.nodup_cons]
          rw [keys, List.map_cons, List.nodup_cons, hentry] at h
          exact h
      · next hentry =>
          rw [keys, List.map_cons, ← keys, List.nodup_cons, mem_keys_set, not_or]
          exact ⟨⟨hentry, (List.nodup_cons.mp h).1⟩, ih hrest⟩

theorem get_of_mem (h : (keys m).Nodup) (hmem : (k, v) ∈ m) : get k m = some v := by
  induction m with
  | nil => cases hmem
  | cons entry rest ih =>
      obtain ⟨hentry, hrest⟩ := List.nodup_cons.mp h
      rw [get]
      rcases List.mem_cons.mp hmem with rfl | hmem
      · exact if_pos rfl
      · rw [if_neg, ih hrest hmem]
        rintro rfl
        exact hentry (List.mem_map.mpr ⟨_, hmem, rfl⟩)

/-- Keeping only some values keeps each key's value or drops the key. -/
theorem get_filter {p : ν → Bool} (h : (keys m).Nodup) :
    get k (m.filter fun entry => p entry.2) = (get k m).filter p := by
  induction m with
  | nil => rfl
  | cons entry rest ih =>
      obtain ⟨habsent, hrest⟩ := List.nodup_cons.mp h
      rw [List.filter_cons, get]
      by_cases hentry : entry.1 = k
      · have hnone : get k rest = none := by
          rw [get_eq_none, ← hentry]
          exact habsent
        rw [if_pos hentry, Option.filter_some]
        split
        · rw [get, if_pos hentry]
        · rw [ih hrest, hnone, Option.filter_none]
      · rw [if_neg hentry, ← ih hrest]
        split
        · rw [get, if_neg hentry]
        · rfl

theorem get_map {μ : Type} (f : ν → μ) :
    get k (m.map fun entry => (entry.1, f entry.2)) = (get k m).map f := by
  induction m with
  | nil => rfl
  | cons entry rest ih =>
      rw [List.map_cons, get, get]
      split
      · rfl
      · exact ih

end InsertionMap
