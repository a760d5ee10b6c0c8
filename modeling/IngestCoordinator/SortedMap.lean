-- SUMMARY: Finite maps and sets kept as lists in key order, with lookup laws and extensionality.

/-!
# Sorted maps

A finite map is the list of its entries in strictly ascending key order. The list
is the map's meaning as well as its representation: two maps with the same
lookups are equal (`ext_get?`), and reading a map out in order costs nothing. A
set is a map to `Unit`.
-/

namespace IngestCoordinator

/-- A finite map, as the list of its entries in ascending key order. -/
structure SortedMap (κ : Type u) (ν : Type v) [Ord κ] where
  toList : List (κ × ν)
  ascending : toList.Pairwise fun a b => compare a.1 b.1 = .lt

namespace SortedMap

variable {κ : Type u} {ν : Type v} [Ord κ]

instance [Repr κ] [Repr ν] : Repr (SortedMap κ ν) where
  reprPrec m := reprPrec m.toList

instance [DecidableEq κ] [DecidableEq ν] : DecidableEq (SortedMap κ ν) := fun a b =>
  decidable_of_iff (a.toList = b.toList) <| by cases a; cases b; simp

/-- The map without entries. -/
def empty : SortedMap κ ν :=
  ⟨[], .nil⟩

instance : Inhabited (SortedMap κ ν) := ⟨empty⟩

/-- The value of a key in a list of entries. -/
def lookup (k : κ) : List (κ × ν) → Option ν
  | [] => none
  | (k', v) :: rest => if compare k k' = .eq then some v else lookup k rest

/-- The entries with one added or replaced at its place. -/
def insertEntry (k : κ) (v : ν) : List (κ × ν) → List (κ × ν)
  | [] => [(k, v)]
  | (k', v') :: rest =>
    match compare k k' with
    | .lt => (k, v) :: (k', v') :: rest
    | .eq => (k, v) :: rest
    | .gt => (k', v') :: insertEntry k v rest

theorem mem_insertEntry {k : κ} {v : ν} {entries : List (κ × ν)} {e : κ × ν}
    (h : e ∈ insertEntry k v entries) : e = (k, v) ∨ e ∈ entries := by
  induction entries with
  | nil => exact .inl (List.mem_singleton.1 h)
  | cons head rest ih =>
    obtain ⟨k', v'⟩ := head
    rw [insertEntry] at h
    split at h
    · exact (List.mem_cons.1 h).imp id id
    · exact (List.mem_cons.1 h).imp id (List.mem_cons_of_mem _)
    · rcases List.mem_cons.1 h with h | h
      · exact .inr (h ▸ List.mem_cons_self)
      · exact (ih h).imp id (List.mem_cons_of_mem _)

theorem ascending_insertEntry [Std.TransOrd κ] (k : κ) (v : ν) {entries : List (κ × ν)}
    (h : entries.Pairwise fun a b => compare a.1 b.1 = .lt) :
    (insertEntry k v entries).Pairwise fun a b => compare a.1 b.1 = .lt := by
  induction entries with
  | nil => exact List.pairwise_singleton _ _
  | cons head rest ih =>
    obtain ⟨k', v'⟩ := head
    obtain ⟨h₁, h₂⟩ := List.pairwise_cons.1 h
    rw [insertEntry]
    split
    · rename_i hlt
      refine List.pairwise_cons.2 ⟨fun e he => ?_, h⟩
      rcases List.mem_cons.1 he with rfl | he
      · exact hlt
      · exact Std.TransCmp.lt_trans hlt (h₁ e he)
    · rename_i heq
      exact List.pairwise_cons.2 ⟨fun e he => Std.TransCmp.lt_of_eq_of_lt heq (h₁ e he), h₂⟩
    · rename_i hgt
      refine List.pairwise_cons.2 ⟨fun e he => ?_, ih h₂⟩
      rcases mem_insertEntry he with rfl | he
      · exact Std.OrientedCmp.lt_of_gt hgt
      · exact h₁ e he

/-- The value of a key. -/
def get? (m : SortedMap κ ν) (k : κ) : Option ν :=
  lookup k m.toList

/-- Whether a key has a value. -/
def contains (m : SortedMap κ ν) (k : κ) : Bool :=
  (m.get? k).isSome

/-- The map with the value of one key set. -/
def insert [Std.TransOrd κ] (m : SortedMap κ ν) (k : κ) (v : ν) : SortedMap κ ν :=
  ⟨insertEntry k v m.toList, ascending_insertEntry k v m.ascending⟩

/-- The entries that pass a test. -/
def filter (m : SortedMap κ ν) (p : κ → ν → Bool) : SortedMap κ ν :=
  ⟨m.toList.filter fun e => p e.1 e.2, m.ascending.filter _⟩

/-- The map without a key. -/
def erase (m : SortedMap κ ν) (k : κ) : SortedMap κ ν :=
  m.filter fun k' _ => compare k k' ≠ .eq

/-- The map with every value changed. -/
def map (m : SortedMap κ ν) (f : κ → ν → μ) : SortedMap κ μ :=
  ⟨m.toList.map fun e => (e.1, f e.1 e.2), m.ascending.map _ fun _ _ h => h⟩

/-- The map of a list of entries, where a later entry replaces an earlier one of its key. -/
def ofList [Std.TransOrd κ] (entries : List (κ × ν)) : SortedMap κ ν :=
  entries.foldl (fun m e => m.insert e.1 e.2) empty

/-- The keys, in order. -/
def keys (m : SortedMap κ ν) : List κ :=
  m.toList.map (·.1)

/-- The values, in the order of their keys. -/
def values (m : SortedMap κ ν) : List ν :=
  m.toList.map (·.2)

/-- The number of entries. -/
def size (m : SortedMap κ ν) : Nat :=
  m.toList.length

/-- Whether there is no entry. -/
def isEmpty (m : SortedMap κ ν) : Bool :=
  m.toList.isEmpty

/-! ## Lookups -/

@[simp] theorem get?_empty (k : κ) : (empty : SortedMap κ ν).get? k = none := rfl

theorem lookup_eq_none {k : κ} {entries : List (κ × ν)}
    (h : ∀ e ∈ entries, compare k e.1 = .lt) : lookup k entries = none := by
  induction entries with
  | nil => rfl
  | cons head rest ih =>
    rw [lookup, if_neg (by simp [h head List.mem_cons_self])]
    exact ih fun e he => h e (List.mem_cons_of_mem _ he)

theorem lookup_insertEntry [Std.LawfulEqOrd κ] [DecidableEq κ] (k k' : κ) (v : ν)
    (entries : List (κ × ν)) :
    lookup k' (insertEntry k v entries) = if k' = k then some v else lookup k' entries := by
  induction entries with
  | nil =>
    simp only [insertEntry, lookup, Std.compare_eq_iff_eq]
  | cons head rest ih =>
    obtain ⟨k'', v''⟩ := head
    rw [insertEntry]
    split
    · rename_i hlt
      simp only [lookup, Std.compare_eq_iff_eq]
    · rename_i heq
      obtain rfl := Std.compare_eq_iff_eq.1 heq
      simp only [lookup, Std.compare_eq_iff_eq]
      split <;> rfl
    · rename_i hgt
      simp only [lookup, ih, Std.compare_eq_iff_eq]
      by_cases h : k' = k''
      · subst h
        have : k' ≠ k := by
          rintro rfl
          simp at hgt
        simp [this]
      · simp [h]

variable [Std.LawfulEqOrd κ]

theorem get?_insert [Std.TransOrd κ] [DecidableEq κ] (m : SortedMap κ ν) (k k' : κ) (v : ν) :
    (m.insert k v).get? k' = if k' = k then some v else m.get? k' :=
  lookup_insertEntry k k' v m.toList

@[simp] theorem get?_insert_self [Std.TransOrd κ] [DecidableEq κ]
    (m : SortedMap κ ν) (k : κ) (v : ν) :
    (m.insert k v).get? k = some v := by
  simp [get?_insert]

theorem mem_toList_iff {m : SortedMap κ ν} {k : κ} {v : ν} :
    (k, v) ∈ m.toList ↔ m.get? k = some v := by
  obtain ⟨entries, h⟩ := m
  simp only [get?]
  induction entries with
  | nil => simp [lookup]
  | cons head rest ih =>
    obtain ⟨k', v'⟩ := head
    obtain ⟨h₁, h₂⟩ := List.pairwise_cons.1 h
    simp only [lookup, Std.compare_eq_iff_eq, List.mem_cons, Prod.mk.injEq, ih h₂]
    by_cases hk : k = k'
    · subst hk
      have hn : lookup k rest = none := lookup_eq_none fun e he => h₁ e he
      simp [hn, eq_comm]
    · simp [hk]

theorem get?_filter (m : SortedMap κ ν) (p : κ → ν → Bool) (k : κ) :
    (m.filter p).get? k = (m.get? k).filter (p k) := by
  apply Option.ext
  intro v
  rw [← mem_toList_iff, Option.filter_eq_some_iff, ← mem_toList_iff]
  simp [filter]

theorem get?_erase [DecidableEq κ] (m : SortedMap κ ν) (k k' : κ) :
    (m.erase k).get? k' = if k' = k then none else m.get? k' := by
  rw [erase, get?_filter]
  by_cases h : k' = k
  · subst h
    simp
  · have h' : k ≠ k' := fun e => h e.symm
    cases hg : m.get? k' <;> simp [h, h']

theorem get?_map (m : SortedMap κ ν) (f : κ → ν → μ) (k : κ) :
    (m.map f).get? k = (m.get? k).map (f k) := by
  apply Option.ext
  intro v
  rw [← mem_toList_iff, Option.map_eq_some_iff]
  simp only [map, List.mem_map, Prod.mk.injEq, Prod.exists, ← mem_toList_iff]
  constructor
  · rintro ⟨k', w, hw, rfl, rfl⟩
    exact ⟨w, hw, rfl⟩
  · rintro ⟨w, hw, rfl⟩
    exact ⟨k, w, hw, rfl, rfl⟩

/-- Ascending lists with the same entries are equal. -/
theorem eq_of_mem_iff [Std.TransOrd κ] {l l' : List (κ × ν)}
    (hl : l.Pairwise fun a b => compare a.1 b.1 = .lt)
    (hl' : l'.Pairwise fun a b => compare a.1 b.1 = .lt)
    (h : ∀ e, e ∈ l ↔ e ∈ l') : l = l' := by
  have irrefl (a : κ × ν) : compare a.1 a.1 ≠ .lt := by simp
  induction l generalizing l' with
  | nil =>
    cases l' with
    | nil => rfl
    | cons e _ => exact absurd ((h e).2 List.mem_cons_self) List.not_mem_nil
  | cons e l ih =>
    cases l' with
    | nil => exact absurd ((h e).1 List.mem_cons_self) List.not_mem_nil
    | cons e' l' =>
      obtain ⟨h₁, h₂⟩ := List.pairwise_cons.1 hl
      obtain ⟨h₁', h₂'⟩ := List.pairwise_cons.1 hl'
      have he : e = e' := by
        rcases List.mem_cons.1 ((h e).1 List.mem_cons_self) with he | he
        · exact he
        · rcases List.mem_cons.1 ((h e').2 List.mem_cons_self) with he' | he'
          · exact he'.symm
          · exact absurd (Std.TransCmp.lt_trans (h₁ e' he') (h₁' e he)) (irrefl e)
      subst he
      refine congrArg _ (ih h₂ h₂' fun x => ⟨fun hx => ?_, fun hx => ?_⟩)
      · rcases List.mem_cons.1 ((h x).1 (List.mem_cons_of_mem _ hx)) with rfl | hx'
        · exact absurd (h₁ x hx) (irrefl x)
        · exact hx'
      · rcases List.mem_cons.1 ((h x).2 (List.mem_cons_of_mem _ hx)) with rfl | hx'
        · exact absurd (h₁' x hx) (irrefl x)
        · exact hx'

/-- Maps with the same lookups are equal. -/
theorem ext_get? [Std.TransOrd κ] {m m' : SortedMap κ ν} (h : ∀ k, m.get? k = m'.get? k) :
    m = m' := by
  have : m.toList = m'.toList := eq_of_mem_iff m.ascending m'.ascending fun (k, v) => by
    rw [mem_toList_iff, mem_toList_iff, h]
  cases m
  cases m'
  simp_all

end SortedMap

/-! ## Sets -/

/-- A finite set, as a map whose keys are the elements. -/
abbrev SortedSet (κ : Type u) [Ord κ] := SortedMap κ Unit

namespace SortedSet

variable {κ : Type u} [Ord κ]

/-- The elements, in ascending order. -/
def elems (s : SortedSet κ) : List κ :=
  s.keys

/-- The set with one element more. -/
def add [Std.TransOrd κ] (s : SortedSet κ) (k : κ) : SortedSet κ :=
  s.insert k ()

/-- The set of the elements of a list. -/
def ofElems [Std.TransOrd κ] (elems : List κ) : SortedSet κ :=
  elems.foldl add SortedMap.empty

theorem contains_add [Std.TransOrd κ] [Std.LawfulEqOrd κ] [DecidableEq κ] (s : SortedSet κ)
    (k k' : κ) : (s.add k).contains k' = (decide (k' = k) || s.contains k') := by
  rw [add, SortedMap.contains, SortedMap.get?_insert, SortedMap.contains]
  split <;> simp_all

end SortedSet

end IngestCoordinator
