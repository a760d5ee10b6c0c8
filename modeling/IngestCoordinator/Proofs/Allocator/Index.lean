-- SUMMARY: The key index by its lookups, and its agreement with the stored segments.
import IngestCoordinator.Allocator.Index
import IngestCoordinator.Proofs.Segment.History

/-!
# The index and the records

The index agrees with the stored segments if it names exactly those that grow, each
under its own key: as the target if it takes rows, else among the retired. Every
step of the allocator changes one segment and moves it in the index accordingly.
-/

namespace IngestCoordinator

namespace KeyIndex

variable (index : KeyIndex) (key key' : SegmentKey) (id id' : SegmentId)

theorem target?_insert (entry : KeyEntry) :
    target? (index.insert key entry) key' =
      if key' = key then entry.target else index.target? key' := by
  simp only [target?, SortedMap.get?_insert]
  split <;> rfl

theorem mem_retired_iff :
    id ∈ index.retired key ↔ ∃ entry, index.get? key = some entry ∧ entry.retired.contains id := by
  unfold retired
  cases index.get? key with
  | none => simp
  | some entry => simp [SortedSet.mem_elems_iff]

theorem mem_retired_insert (entry : KeyEntry) :
    id ∈ retired (index.insert key entry) key' ↔
      if key' = key then entry.retired.contains id = true else id ∈ index.retired key' := by
  rw [mem_retired_iff, SortedMap.get?_insert]
  split
  · simp
  · rw [mem_retired_iff]

/-- The entry of a key, or an empty one, has the key's target and retired segments. -/
theorem target_getD : ((index.get? key).getD {}).target = index.target? key := by
  unfold target?
  cases index.get? key <;> rfl

theorem contains_getD :
    ((index.get? key).getD {}).retired.contains id = true ↔ id ∈ index.retired key := by
  rw [mem_retired_iff]
  cases index.get? key with
  | none => simp [SortedMap.contains]
  | some entry => simp

/-! ## Targets -/

theorem target?_setTarget : (index.setTarget key id).target? key' =
    if key' = key then some id else index.target? key' :=
  target?_insert ..

theorem target?_retire : (index.retire key id).target? key' =
    if key' = key ∧ index.target? key = some id then none else index.target? key' := by
  rw [retire, target?_insert, KeyEntry.retire, target_getD]
  by_cases hkey : key' = key
  · subst hkey
    by_cases htarget : index.target? key' = some id <;> simp [htarget]
  · simp [hkey]

theorem target?_forget : (index.forget key id).target? key' =
    if key' = key ∧ index.target? key = some id then none else index.target? key' := by
  unfold forget
  cases hget : index.get? key with
  | none =>
    have hnone : index.target? key = none := by simp [target?, hget]
    simp [hnone]
  | some entry =>
    have htarget : index.target? key = entry.target := by simp [target?, hget]
    simp only [target?_insert, KeyEntry.forget, htarget]
    by_cases hkey : key' = key
    · subst hkey
      by_cases h : entry.target = some id <;> simp [h, htarget]
    · simp [hkey]

theorem target?_prune : (index.prune key).target? key' = index.target? key' := by
  unfold prune
  cases hget : index.get? key with
  | none => rfl
  | some entry =>
    dsimp only
    split
    · rename_i hempty
      rw [target?, SortedMap.get?_erase]
      split
      · rename_i hkey
        have htarget : entry.target = none := by
          simpa using (Bool.and_eq_true_iff.1 hempty).1
        rw [hkey, target?, hget, Option.bind_some, htarget, Option.bind_none]
      · rfl
    · rfl

/-! ## Retired segments -/

theorem mem_retired_setTarget :
    id' ∈ (index.setTarget key id).retired key' ↔ id' ∈ index.retired key' := by
  rw [setTarget, mem_retired_insert]
  split
  · rename_i hkey
    rw [contains_getD, hkey]
  · exact Iff.rfl

theorem mem_retired_retire : id' ∈ (index.retire key id).retired key' ↔
    key' = key ∧ id' = id ∨ id' ∈ index.retired key' := by
  rw [retire, mem_retired_insert]
  split
  · rename_i hkey
    subst hkey
    simp only [KeyEntry.retire, SortedSet.contains_add, Bool.or_eq_true, decide_eq_true_eq,
      contains_getD, true_and]
  · rename_i hkey
    simp [hkey]

theorem mem_retired_forget : id' ∈ (index.forget key id).retired key' ↔
    ¬ (key' = key ∧ id' = id) ∧ id' ∈ index.retired key' := by
  unfold forget
  cases hget : index.get? key with
  | none =>
    have hnone : id' ∉ index.retired key := by simp [retired, hget]
    by_cases hkey : key' = key
    · subst hkey
      simp [hnone]
    · simp [hkey]
  | some entry =>
    have hcontains : entry.retired.contains id' = true ↔ id' ∈ index.retired key := by
      simp [mem_retired_iff, hget]
    simp only [mem_retired_insert, KeyEntry.forget]
    split
    · rename_i hkey
      subst hkey
      rw [SortedSet.contains_erase, Bool.and_eq_true, hcontains]
      simp
    · rename_i hkey
      simp [hkey]

theorem mem_retired_prune : id' ∈ (index.prune key).retired key' ↔ id' ∈ index.retired key' := by
  unfold prune
  cases hget : index.get? key with
  | none => rfl
  | some entry =>
    dsimp only
    split
    · rename_i hempty
      rw [mem_retired_iff, SortedMap.get?_erase]
      split
      · rename_i hkey
        have hretired : entry.retired.toList = [] := by
          simpa [SortedMap.isEmpty] using (Bool.and_eq_true_iff.1 hempty).2
        rw [hkey, mem_retired_iff, hget]
        simp [SortedMap.contains, SortedMap.get?, hretired, SortedMap.lookup]
      · rw [mem_retired_iff]
    · rfl

end KeyIndex

namespace KeyIndex

/-- An index is known by its keys, their targets and their retired segments. -/
theorem ext_lookups {index index' : KeyIndex}
    (htracked : ∀ key, index.contains key = index'.contains key)
    (htarget : ∀ key, index.target? key = index'.target? key)
    (hretired : ∀ key id, id ∈ index.retired key ↔ id ∈ index'.retired key) : index = index' := by
  refine SortedMap.ext_get? fun key => ?_
  have hkey := htracked key
  have htarget := htarget key
  have hretired (id : SegmentId) := hretired key id
  simp only [mem_retired_iff, target?, SortedMap.contains] at hkey htarget hretired
  cases hget : index.get? key with
  | none =>
    cases hget' : index'.get? key with
    | none => rfl
    | some entry' => simp [hget, hget'] at hkey
  | some entry =>
    cases hget' : index'.get? key with
    | none => simp [hget, hget'] at hkey
    | some entry' =>
      simp only [hget, hget', Option.bind_some, Option.some_inj, exists_eq_left'] at htarget hretired
      have hsame : entry.retired = entry'.retired :=
        SortedSet.ext_contains fun id => Bool.eq_iff_iff.2 (hretired id)
      cases entry
      cases entry'
      simp_all

end KeyIndex

/-! ## Agreement -/

/-- Where a growing segment stands: its key, and whether it takes no further rows. -/
def Segments.place? (segments : Segments) (id : SegmentId) : Option (SegmentKey × Bool) :=
  ((segments.get? id).filter fun segment => segment.state == .growing).map fun segment =>
    (segment.key, segment.superseded)

theorem Segments.place?_eq_some_iff {segments : Segments} {id : SegmentId} {key : SegmentKey}
    {superseded : Bool} : segments.place? id = some (key, superseded) ↔
      ∃ segment, segments.get? id = some segment ∧ segment.key = key ∧ segment.state = .growing ∧
        segment.superseded = superseded := by
  rw [place?, Option.map_eq_some_iff]
  simp only [Option.filter_eq_some_iff, beq_iff_eq, Prod.mk.injEq]
  refine exists_congr fun segment => ⟨?_, ?_⟩
  · rintro ⟨⟨hget, hgrowing⟩, hkey, hflag⟩
    exact ⟨hget, hkey, hgrowing, hflag⟩
  · rintro ⟨hget, hkey, hgrowing, hflag⟩
    exact ⟨⟨hget, hgrowing⟩, hkey, hflag⟩


/--
The target of a key is its one growing segment that is not superseded, and its
retired segments are the growing ones that are.
-/
structure KeyIndex.Agrees (index : KeyIndex) (segments : Segments) : Prop where
  target : ∀ key id, index.target? key = some id ↔ ∃ segment, segments.get? id = some segment ∧
    segment.key = key ∧ segment.state = .growing ∧ segment.superseded = false
  retired : ∀ key id, id ∈ index.retired key ↔ ∃ segment, segments.get? id = some segment ∧
    segment.key = key ∧ segment.state = .growing ∧ segment.superseded = true

namespace KeyIndex

variable {index : KeyIndex} {segments segments' : Segments} {key : SegmentKey} {id : SegmentId}

theorem agrees_iff : index.Agrees segments ↔ ∀ key id,
    (index.target? key = some id ↔ segments.place? id = some (key, false)) ∧
      (id ∈ index.retired key ↔ segments.place? id = some (key, true)) := by
  simp only [Segments.place?_eq_some_iff]
  exact ⟨fun h key id => ⟨h.target key id, h.retired key id⟩,
    fun h => ⟨fun key id => (h key id).1, fun key id => (h key id).2⟩⟩

theorem agrees_empty : KeyIndex.Agrees .empty .empty :=
  agrees_iff.2 fun _ _ => by simp [target?, retired, Segments.place?]

/-- Only one segment of a key can be its target. -/
theorem Agrees.target_unique (h : index.Agrees segments) {segment segment' : Segment}
    {id' : SegmentId} (hget : segments.get? id = some segment)
    (hget' : segments.get? id' = some segment') (hkey : segment.key = segment'.key)
    (hgrowing : segment.state = .growing) (hopen : segment.superseded = false)
    (hgrowing' : segment'.state = .growing) (hopen' : segment'.superseded = false) : id = id' := by
  have hid := (h.target segment'.key id).2 ⟨segment, hget, hkey, hgrowing, hopen⟩
  have hid' := (h.target segment'.key id').2 ⟨segment', hget', rfl, hgrowing', hopen'⟩
  exact Option.some_inj.1 (hid.symm.trans hid')

/-- Indices that agree with the same segments name the same target for each key. -/
theorem Agrees.target?_eq {index' : KeyIndex} (h : index.Agrees segments)
    (h' : index'.Agrees segments) (key : SegmentKey) : index.target? key = index'.target? key := by
  refine Option.ext fun id => ?_
  rw [h.target, h'.target]

/-- They also name the same retired segments, in the same order. -/
theorem Agrees.retired_eq {index' : KeyIndex} (h : index.Agrees segments)
    (h' : index'.Agrees segments) (key : SegmentKey) : index.retired key = index'.retired key := by
  have hretired (index : KeyIndex) :
      index.retired key = ((index.get? key).getD {}).retired.elems := by
    unfold KeyIndex.retired
    cases index.get? key <;> rfl
  have hsame : ((index.get? key).getD {}).retired = ((index'.get? key).getD {}).retired := by
    refine SortedSet.ext_contains fun id => Bool.eq_iff_iff.2 ?_
    rw [contains_getD, contains_getD, h.retired, h'.retired]
  rw [hretired, hretired, hsame]

/-- What is tracked under a key are its growing segments. -/
theorem Agrees.tracked (h : index.Agrees segments) (key : SegmentKey) (id : SegmentId) :
    (index.target? key = some id ∨ id ∈ index.retired key) ↔
      ∃ segment, segments.get? id = some segment ∧ segment.key = key ∧
        segment.state = .growing := by
  rw [h.target, h.retired]
  constructor
  · rintro (⟨segment, hget, hkey, hgrowing, _⟩ | ⟨segment, hget, hkey, hgrowing, _⟩)
    · exact ⟨segment, hget, hkey, hgrowing⟩
    · exact ⟨segment, hget, hkey, hgrowing⟩
  · rintro ⟨segment, hget, hkey, hgrowing⟩
    cases hflag : segment.superseded with
    | false => exact .inl ⟨segment, hget, hkey, hgrowing, hflag⟩
    | true => exact .inr ⟨segment, hget, hkey, hgrowing, hflag⟩

theorem Agrees.prune (h : index.Agrees segments) (key : SegmentKey) :
    (index.prune key).Agrees segments := by
  refine agrees_iff.2 fun key' id => ?_
  rw [target?_prune, mem_retired_prune]
  exact agrees_iff.1 h key' id

/-- If no segment changes its place, nothing has to be done. -/
theorem Agrees.of_place (h : index.Agrees segments)
    (hplace : ∀ id, segments'.place? id = segments.place? id) : index.Agrees segments' := by
  refine agrees_iff.2 fun key id => ?_
  rw [hplace]
  exact agrees_iff.1 h key id

/-- A segment of the key that grows and takes no further rows is retired. -/
theorem Agrees.retire (h : index.Agrees segments)
    (hold : ∀ key' superseded, segments.place? id = some (key', superseded) → key' = key)
    (hother : ∀ id', id' ≠ id → segments'.place? id' = segments.place? id')
    (hnew : segments'.place? id = some (key, true)) : (index.retire key id).Agrees segments' := by
  refine agrees_iff.2 fun key' id' => ?_
  obtain ⟨htarget, hretired⟩ := agrees_iff.1 h key' id'
  rw [target?_retire, mem_retired_retire]
  by_cases hid : id' = id
  · subst hid
    rw [hnew]
    constructor
    · by_cases hkey : key' = key
      · subst hkey
        by_cases ht : index.target? key' = some id' <;> simp [ht]
      · have hno : index.target? key' ≠ some id' := fun ht => hkey (hold _ _ (htarget.1 ht))
        simp [hkey, hno]
    · by_cases hkey : key' = key
      · simp [hkey]
      · have hno : id' ∉ index.retired key' := fun hr => hkey (hold _ _ (hretired.1 hr))
        simp [hkey, hno, Ne.symm hkey]
  · rw [hother id' hid, ← htarget, ← hretired]
    refine ⟨?_, by simp [hid]⟩
    split
    · rename_i hcond
      obtain ⟨rfl, ht⟩ := hcond
      simp [ht, Ne.symm hid]
    · exact Iff.rfl

/-- A segment of the key that does not grow any longer is forgotten. -/
theorem Agrees.forget (h : index.Agrees segments)
    (hold : ∀ key' superseded, segments.place? id = some (key', superseded) → key' = key)
    (hother : ∀ id', id' ≠ id → segments'.place? id' = segments.place? id')
    (hnew : segments'.place? id = none) : (index.forget key id).Agrees segments' := by
  refine agrees_iff.2 fun key' id' => ?_
  obtain ⟨htarget, hretired⟩ := agrees_iff.1 h key' id'
  rw [target?_forget, mem_retired_forget]
  by_cases hid : id' = id
  · subst hid
    have hno (superseded : Bool) (hplace : segments.place? id' = some (key', superseded)) :
        key' = key := hold key' superseded hplace
    rw [hnew]
    constructor
    · by_cases hkey : key' = key
      · subst hkey
        by_cases ht : index.target? key' = some id' <;> simp [ht]
      · have ht : index.target? key' ≠ some id' := fun ht => hkey (hno _ (htarget.1 ht))
        simp [hkey, ht]
    · by_cases hkey : key' = key
      · simp [hkey]
      · have hr : id' ∉ index.retired key' := fun hr => hkey (hno _ (hretired.1 hr))
        simp [hr]
  · rw [hother id' hid, ← htarget, ← hretired]
    refine ⟨?_, by simp [hid]⟩
    split
    · rename_i hcond
      obtain ⟨rfl, ht⟩ := hcond
      simp [ht, Ne.symm hid]
    · exact Iff.rfl

/-- A segment that begins to grow becomes the target of its key, if the key has none. -/
theorem Agrees.setTarget (h : index.Agrees segments) (hfree : index.target? key = none)
    (hold : segments.place? id = none)
    (hother : ∀ id', id' ≠ id → segments'.place? id' = segments.place? id')
    (hnew : segments'.place? id = some (key, false)) :
    (index.setTarget key id).Agrees segments' := by
  refine agrees_iff.2 fun key' id' => ?_
  obtain ⟨htarget, hretired⟩ := agrees_iff.1 h key' id'
  rw [target?_setTarget, mem_retired_setTarget]
  by_cases hid : id' = id
  · subst hid
    rw [hold] at htarget hretired
    rw [hnew]
    refine ⟨?_, by simp [hretired]⟩
    by_cases hkey : key' = key
    · simp [hkey]
    · simp [hkey, htarget, Ne.symm hkey]
  · rw [hother id' hid, ← htarget, ← hretired]
    refine ⟨?_, Iff.rfl⟩
    split
    · rename_i hkey
      rw [hkey, hfree]
      simp [Ne.symm hid]
    · exact Iff.rfl

end KeyIndex

end IngestCoordinator
