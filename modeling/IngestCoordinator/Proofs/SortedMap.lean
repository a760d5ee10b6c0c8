-- SUMMARY: Maps built from lists, sets built from lists, and membership in keys and values.
import IngestCoordinator.SortedMap

/-!
# More on sorted maps

A map built from a list has the list's entries if no key repeats, so reading a map
out and building it again gives the map; the same holds of sets. Membership in the
keys, the values and the elements is stated through lookups.
-/

namespace IngestCoordinator

namespace SortedMap

variable {κ : Type u} {ν : Type v} [Ord κ]

theorem contains_iff {m : SortedMap κ ν} {k : κ} :
    m.contains k = true ↔ ∃ v, m.get? k = some v := by
  rw [contains, Option.isSome_iff_exists]

variable [Std.LawfulEqOrd κ]

theorem mem_keys_iff {m : SortedMap κ ν} {k : κ} : k ∈ m.keys ↔ ∃ v, m.get? k = some v := by
  simp only [keys, List.mem_map, Prod.exists, exists_and_right, exists_eq_right]
  exact exists_congr fun v => mem_toList_iff

theorem mem_values_iff {m : SortedMap κ ν} {v : ν} : v ∈ m.values ↔ ∃ k, m.get? k = some v := by
  simp only [values, List.mem_map, Prod.exists, exists_eq_right]
  exact exists_congr fun k => mem_toList_iff

/-- The keys of a map do not repeat. -/
theorem nodup_keys (m : SortedMap κ ν) : m.keys.Nodup := by
  refine List.pairwise_map.2 (m.ascending.imp fun {a b} h heq => ?_)
  rw [heq] at h
  simp at h

variable [Std.TransOrd κ] [DecidableEq κ]

/-- What is found after an insertion has been inserted, or was there before. -/
theorem get?_insert_cases {m : SortedMap κ ν} {k k' : κ} {v w : ν}
    (h : (m.insert k v).get? k' = some w) : k' = k ∧ w = v ∨ k' ≠ k ∧ m.get? k' = some w := by
  rw [get?_insert] at h
  split at h
  · rename_i hkey
    exact .inl ⟨hkey, (Option.some.inj h).symm⟩
  · rename_i hkey
    exact .inr ⟨hkey, h⟩

omit [Std.TransOrd κ] in
theorem get?_of_get?_erase {m : SortedMap κ ν} {k k' : κ} {v : ν}
    (h : (m.erase k).get? k' = some v) : m.get? k' = some v := by
  rw [get?_erase] at h
  exact (Option.ite_none_left_eq_some.1 h).2

/-- Of two values put under one key the second counts. -/
theorem insert_insert (m : SortedMap κ ν) (k : κ) (v w : ν) :
    (m.insert k v).insert k w = m.insert k w := by
  apply ext_get?
  intro k'
  by_cases h : k' = k <;> simp [get?_insert, h]

theorem get?_foldl_insert {entries : List (κ × ν)} (h : (entries.map (·.1)).Nodup)
    (m : SortedMap κ ν) (k : κ) (v : ν) :
    (entries.foldl (fun m e => m.insert e.1 e.2) m).get? k = some v ↔
      (k, v) ∈ entries ∨ k ∉ entries.map (·.1) ∧ m.get? k = some v := by
  induction entries generalizing m with
  | nil => simp
  | cons e entries ih =>
    obtain ⟨k', v'⟩ := e
    obtain ⟨hfresh, hnodup⟩ := List.nodup_cons.1 h
    rw [List.foldl_cons, ih hnodup, get?_insert]
    by_cases hk : k = k'
    · subst hk
      have hno : (k, v) ∉ entries := fun hmem => hfresh (List.mem_map.2 ⟨_, hmem, rfl⟩)
      simp [hno, hfresh, eq_comm]
    · simp [hk]

/-- A list whose keys do not repeat makes a map with its entries. -/
theorem get?_ofList {entries : List (κ × ν)} (h : (entries.map (·.1)).Nodup) (k : κ) (v : ν) :
    (ofList entries).get? k = some v ↔ (k, v) ∈ entries := by
  rw [ofList, get?_foldl_insert h]
  simp

theorem get?_foldl_insert_cases {entries : List (κ × ν)} {m : SortedMap κ ν} {k : κ} {v : ν}
    (h : (entries.foldl (fun m e => m.insert e.1 e.2) m).get? k = some v) :
    (k, v) ∈ entries ∨ m.get? k = some v := by
  induction entries generalizing m with
  | nil => exact .inr h
  | cons e entries ih =>
    rcases ih h with hmem | hget
    · exact .inl (List.mem_cons_of_mem e hmem)
    · rcases get?_insert_cases hget with ⟨rfl, rfl⟩ | ⟨-, hget⟩
      · exact .inl List.mem_cons_self
      · exact .inr hget

/-- What is found in a map made of a list has been listed, whether keys repeat or not. -/
theorem mem_of_get?_ofList {entries : List (κ × ν)} {k : κ} {v : ν}
    (h : (ofList entries).get? k = some v) : (k, v) ∈ entries := by
  rcases get?_foldl_insert_cases h with hmem | hget
  · exact hmem
  · cases hget

theorem eq_nil_of_ofList_eq_empty {entries : List (κ × ν)} (h : ofList entries = empty) :
    entries = [] := by
  rcases List.eq_nil_or_concat entries with hnil | ⟨init, last, rfl⟩
  · exact hnil
  · have hlast : (ofList (init ++ [last])).get? last.1 = some last.2 := by
      simp [ofList, List.foldl_append]
    rw [List.concat_eq_append] at h
    rw [h] at hlast
    cases hlast

end SortedMap

namespace SortedSet

variable {κ : Type u} [Ord κ] [Std.LawfulEqOrd κ]

theorem mem_elems_iff {s : SortedSet κ} {k : κ} : k ∈ s.elems ↔ s.contains k = true := by
  rw [elems, SortedMap.mem_keys_iff, SortedMap.contains_iff]

theorem contains_erase [DecidableEq κ] (s : SortedSet κ) (k k' : κ) :
    SortedMap.contains (s.erase k) k' = (decide (k' ≠ k) && s.contains k') := by
  rw [SortedMap.contains, SortedMap.get?_erase, SortedMap.contains]
  split <;> simp_all

variable [Std.TransOrd κ]

/-- Sets with the same elements are equal. -/
theorem ext_contains {s s' : SortedSet κ} (h : ∀ k, s.contains k = s'.contains k) : s = s' := by
  refine SortedMap.ext_get? fun k => ?_
  have hk := h k
  simp only [SortedMap.contains] at hk
  cases hs : s.get? k <;> cases hs' : s'.get? k <;> simp_all

variable [DecidableEq κ]

theorem contains_foldl_add (elems : List κ) (s : SortedSet κ) (k : κ) :
    (elems.foldl add s).contains k = (decide (k ∈ elems) || s.contains k) := by
  induction elems generalizing s with
  | nil => simp
  | cons k' elems ih =>
    rw [List.foldl_cons, ih, contains_add]
    by_cases h : k = k' <;> simp [h]

theorem ofElems_elems (s : SortedSet κ) : ofElems s.elems = s := by
  refine ext_contains fun k => ?_
  have hempty : (SortedMap.empty : SortedSet κ).contains k = false := rfl
  rw [ofElems, contains_foldl_add, hempty, Bool.or_false, Bool.eq_iff_iff, decide_eq_true_iff,
    mem_elems_iff]

end SortedSet

end IngestCoordinator
