-- SUMMARY: The newest segment of a key: recovery finds it, and superseding the others keeps it.
import IngestCoordinator.Proofs.Allocator.Recovery

/-!
# The newest segment of a key

Of the segments of a key that grow and are not superseded, the newest is the one that
was opened last, or has the greatest number of those opened at that time. Recovery sorts
the growing segments of a key and takes the last one that is not superseded, which is
the newest; the superseded ones in between do not matter to it.
-/

namespace IngestCoordinator

/-- A segment was not opened later: before the other, or at that time with no greater number. -/
def Segment.NotLater (segment other : Segment) : Prop :=
  segment.openTime < other.openTime ∨
    segment.openTime = other.openTime ∧ segment.id.val ≤ other.id.val

namespace Segment

variable {first second third : Segment}

theorem NotLater.refl (segment : Segment) : segment.NotLater segment :=
  .inr ⟨rfl, Int64.le_refl _⟩

theorem NotLater.trans (h : first.NotLater second) (h' : second.NotLater third) :
    first.NotLater third := by
  unfold NotLater at *
  simp only [UInt64.lt_iff_toNat_lt, ← UInt64.toNat_inj, Int64.le_iff_toInt_le] at *
  omega

theorem notLater_total (first second : Segment) :
    first.NotLater second ∨ second.NotLater first := by
  unfold NotLater
  simp only [UInt64.lt_iff_toNat_lt, ← UInt64.toNat_inj, Int64.le_iff_toInt_le]
  omega

/-- Two segments of which neither was opened later have the same number. -/
theorem NotLater.id_eq (h : first.NotLater second) (h' : second.NotLater first) :
    first.id = second.id := by
  unfold NotLater at *
  simp only [UInt64.lt_iff_toNat_lt, ← UInt64.toNat_inj, Int64.le_iff_toInt_le] at *
  have hval : first.id.val = second.id.val := Int64.toInt_inj.1 (by omega)
  exact congrArg Identifier.mk hval

theorem openedBefore_iff : Allocator.openedBefore first second = true ↔ first.NotLater second := by
  have hid : (compare first.id second.id).isLE = true ↔ first.id.val ≤ second.id.val := by
    change (compare first.id.val second.id.val).isLE = true ↔ _
    exact Std.isLE_compare
  simp only [Allocator.openedBefore, NotLater, Bool.or_eq_true, Bool.and_eq_true, decide_eq_true_eq,
    beq_iff_eq, hid]

end Segment

namespace Segments

variable {segments : Segments} {key : SegmentKey} {id id' : SegmentId}

/-- The segment grows under the key. -/
structure Grows (segments : Segments) (key : SegmentKey) (id : SegmentId) (segment : Segment) :
    Prop where
  stored : segments.get? id = some segment
  growing : segment.state = .growing
  key : segment.key = key

/-- The segment grows, is not superseded, and no other such segment of the key was opened later. -/
def Newest (segments : Segments) (key : SegmentKey) (id : SegmentId) : Prop :=
  ∃ segment, segments.Grows key id segment ∧ segment.superseded = false ∧
    ∀ id' other, segments.Grows key id' other → other.superseded = false → other.NotLater segment

/-- A key has one newest segment at most. -/
theorem Newest.unique (hnumbered : ∀ id segment, segments.get? id = some segment → segment.id = id)
    (h : segments.Newest key id) (h' : segments.Newest key id') : id = id' := by
  obtain ⟨segment, hgrows, hopen, hlast⟩ := h
  obtain ⟨segment', hgrows', hopen', hlast'⟩ := h'
  have hid := (hlast' id segment hgrows hopen).id_eq (hlast id' segment' hgrows' hopen')
  rwa [hnumbered id segment hgrows.stored, hnumbered id' segment' hgrows'.stored] at hid

end Segments

namespace Allocator

variable {a : Allocator} {key : SegmentKey} {id : SegmentId} {segment : Segment}
  {segments group : List Segment}

/-! ## Groups -/

/-- The group of a key is sorted by age. -/
theorem pairwise_group (hgroup : (growingByKey segments).get? key = some group) :
    group.Pairwise Segment.NotLater := by
  rw [growingByKey, SortedMap.get?_map] at hgroup
  obtain ⟨unsorted, -, hsorted⟩ := Option.map_eq_some_iff.1 hgroup
  subst hsorted
  have hpairwise : (unsorted.mergeSort openedBefore).Pairwise fun first second =>
      openedBefore first second = true := by
    apply List.pairwise_mergeSort
    · intro first second third h h'
      rw [Segment.openedBefore_iff] at *
      exact h.trans h'
    · intro first second
      rw [Bool.or_eq_true, Segment.openedBefore_iff, Segment.openedBefore_iff]
      exact Segment.notLater_total first second
  exact hpairwise.imp Segment.openedBefore_iff.1

/-- A key has a group only if it has a growing segment. -/
theorem exists_mem_group (hgroup : (growingByKey segments).get? key = some group) :
    ∃ segment, segment ∈ group := by
  -- Segments are only added to the groups, and no group is made without one.
  have hadded (listed : List Segment) (groups : SortedMap SegmentKey (List Segment))
      (hgroups : ∀ key group, groups.get? key = some group → group ≠ []) :
      ∀ key group, (listed.foldl (fun (groups : SortedMap SegmentKey (List Segment)) segment =>
        groups.insert segment.key ((groups.get? segment.key).getD [] ++ [segment])) groups).get?
          key = some group → group ≠ [] := by
    induction listed generalizing groups with
    | nil => exact hgroups
    | cons segment listed ih =>
      refine ih _ fun key group hget => ?_
      obtain ⟨-, heq⟩ | ⟨-, hget⟩ := SortedMap.get?_insert_cases hget
      · rw [heq]
        exact List.concat_ne_nil _ _
      · exact hgroups key group hget
  rw [growingByKey, SortedMap.get?_map] at hgroup
  obtain ⟨unsorted, hunsorted, hsorted⟩ := Option.map_eq_some_iff.1 hgroup
  have hne := hadded _ .empty (fun _ _ hnone => nomatch hnone) key unsorted hunsorted
  obtain ⟨segment, hmem⟩ := List.exists_mem_of_ne_nil unsorted hne
  exact ⟨segment, hsorted ▸ List.mem_mergeSort.2 hmem⟩

/-! ## Targets -/

/-- Of a group that is sorted by age, the target was opened last of those not superseded. -/
theorem notLater_recoveredTarget (hsorted : group.Pairwise Segment.NotLater)
    (htarget : recoveredTarget group = some id) :
    ∃ segment ∈ group, segment.superseded = false ∧ segment.id = id ∧
      ∀ other ∈ group, other.superseded = false → other.NotLater segment := by
  obtain ⟨segment, hfind, hid⟩ := Option.map_eq_some_iff.1 htarget
  obtain ⟨hopen, later, earlier, hreverse, hlater⟩ := List.find?_eq_some_iff_append.1 hfind
  have hmem : segment ∈ group := List.mem_reverse.1 (List.mem_of_find?_eq_some hfind)
  refine ⟨segment, hmem, by simpa using hopen, hid, fun other hother hflag => ?_⟩
  have hdescending := List.pairwise_reverse.2 hsorted
  rw [hreverse, List.pairwise_append, List.pairwise_cons] at hdescending
  obtain ⟨-, ⟨hearlier, -⟩, -⟩ := hdescending
  rw [← List.mem_reverse, hreverse, List.mem_append, List.mem_cons] at hother
  rcases hother with hother | rfl | hother
  · -- What comes later in the group is superseded.
    have hclosed := hlater other hother
    simp [hflag] at hclosed
  · exact .refl other
  · exact hearlier other hother

theorem recoveredTarget_eq_none (htarget : recoveredTarget group = none) (hmem : segment ∈ group) :
    segment.superseded = true := by
  have hnone := List.find?_eq_none.1 (Option.map_eq_none_iff.1 htarget) segment
    (List.mem_reverse.2 hmem)
  simpa using hnone

theorem mem_group_iff_grows (hnumbered : a.store.metadata.Numbered)
    (hgroup : (growingByKey a.store.metadata.segments).get? key = some group) :
    segment ∈ group ↔ a.segments.Grows key segment.id segment := by
  rw [mem_group hgroup, mem_segments_iff hnumbered]
  exact ⟨fun ⟨hstored, hgrowing, hkey⟩ => ⟨hstored, hgrowing, hkey⟩,
    fun ⟨hstored, hgrowing, hkey⟩ => ⟨hstored, hgrowing, hkey⟩⟩

/-- The target that is recovered for a key is its newest segment. -/
theorem recoveredTarget_iff (hnumbered : a.store.metadata.Numbered)
    (hgroup : (growingByKey a.store.metadata.segments).get? key = some group) :
    recoveredTarget group = some id ↔ a.segments.Newest key id := by
  have hnewest {id : SegmentId} (htarget : recoveredTarget group = some id) :
      a.segments.Newest key id := by
    obtain ⟨segment, hmem, hopen, rfl, hlast⟩ :=
      notLater_recoveredTarget (pairwise_group hgroup) htarget
    refine ⟨segment, (mem_group_iff_grows hnumbered hgroup).1 hmem, hopen, ?_⟩
    intro id' other hgrows hopen'
    obtain rfl := hnumbered id' other hgrows.stored
    exact hlast other ((mem_group_iff_grows hnumbered hgroup).2 hgrows) hopen'
  refine ⟨hnewest, fun h => ?_⟩
  cases htarget : recoveredTarget group with
  | none =>
    obtain ⟨segment, hgrows, hopen, -⟩ := h
    obtain rfl := hnumbered id segment hgrows.stored
    have hclosed := recoveredTarget_eq_none htarget ((mem_group_iff_grows hnumbered hgroup).2 hgrows)
    simp [hopen] at hclosed
  | some id' => rw [(hnewest htarget).unique hnumbered h]

/-- A key with a growing segment that is not superseded has a newest one. -/
theorem exists_newest (hnumbered : a.store.metadata.Numbered)
    (hgrows : a.segments.Grows key id segment) (hopen : segment.superseded = false) :
    ∃ id', a.segments.Newest key id' := by
  obtain ⟨group, hgroup, hmem⟩ := exists_group hnumbered hgrows.stored hgrows.growing hgrows.key
  cases htarget : recoveredTarget group with
  | none =>
    have hclosed := recoveredTarget_eq_none htarget hmem
    simp [hopen] at hclosed
  | some id' => exact ⟨id', (recoveredTarget_iff hnumbered hgroup).1 htarget⟩

end Allocator

end IngestCoordinator
