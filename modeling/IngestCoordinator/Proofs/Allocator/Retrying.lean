-- SUMMARY: Recovery repairs any store, in any order of the keys, and can be tried until it succeeds.
import IngestCoordinator.Proofs.Allocator.Guarantees
import IngestCoordinator.Proofs.Allocator.Repairing

/-!
# Recovery that is retried

The order in which recovery visits the keys is not fixed, and it may break off at any
segment. It then leaves the index and the watermark as they were, and what it has
superseded was outdated. So another attempt, in another order, goes on with what is left,
and the first one that succeeds ends as a single recovery would have ended.
-/

namespace IngestCoordinator.Allocator

open Operation

/-! ## Recovery in any order -/

/-- An order in which keys are visited, each with its group and each once. -/
structure VisitOrder where
  visit : List (SegmentKey × List Segment) → List (SegmentKey × List Segment)
  perm : ∀ groups, (visit groups).Perm groups

/-- The keys in ascending order. -/
def VisitOrder.ascending : VisitOrder :=
  ⟨id, fun _ => .refl _⟩

/-- Recovery that visits the keys in some order. -/
def recoverVia (order : VisitOrder) : Operation Allocator Nat := do
  let segments ← ofExcept (← get).store.segments
  let index ← repair (order.visit (growingByKey segments).toList)
  modify fun allocator =>
    { allocator with index, watermark := max allocator.watermark (latestSealing segments) }
  return index.size

theorem recoverVia_ascending : recoverVia .ascending = recover :=
  rfl

variable {a b c : Allocator} {key : SegmentKey} {id : SegmentId} {segment : Segment}
  {order : VisitOrder} {index : KeyIndex} {count : Nat}

theorem VisitOrder.mem_visit_iff (order : VisitOrder) (segments : List Segment)
    (group : List Segment) : (key, group) ∈ order.visit (growingByKey segments).toList ↔
      (growingByKey segments).get? key = some group :=
  (order.perm _).mem_iff.trans SortedMap.mem_toList_iff

/-- The keys under which a segment grows. -/
def growingKeys (a : Allocator) : Set SegmentKey :=
  {key | ∃ id segment, a.segments.Grows key id segment}

/-- What a recovery makes of the stored segments. -/
structure Rebuilt (a : Allocator) (count : Nat) (b : Allocator) : Prop where
  /-- The target of a key is its newest segment, -/
  target : ∀ key id, b.index.target? key = some id ↔ a.segments.Newest key id
  /-- and its other growing segments are retired. -/
  retired : ∀ key id, id ∈ b.index.retired key ↔
    (∃ segment, a.segments.Grows key id segment) ∧ ¬ a.segments.Newest key id
  /-- Keys with growing segments are tracked, -/
  tracked : ∀ key, b.index.contains key = true ↔ key ∈ a.growingKeys
  /-- without a target if all of these are superseded. -/
  untargeted : ∀ key, (∀ id segment, a.segments.Grows key id segment →
    segment.superseded = true) → b.index.target? key = none
  /-- Outdated segments have been superseded, and no other record has been touched. -/
  repaired : a.Repaired b
  /-- The watermark has moved past all sealings, and no further. -/
  watermark : IsLeast {bound | a.watermark ≤ bound ∧ SealedBy bound a.segments} b.watermark
  /-- The answer is the number of keys with growing segments. -/
  count : count = a.growingKeys.ncard

/-- A key has no target if it has no newest segment. -/
theorem target?_eq_none (htarget : ∀ id, index.target? key = some id ↔ a.segments.Newest key id)
    (hclosed : ∀ id segment, a.segments.Grows key id segment → segment.superseded = true) :
    index.target? key = none := by
  refine Option.eq_none_iff_forall_ne_some.2 fun id hid => ?_
  obtain ⟨segment, hgrows, hopen, -⟩ := (htarget id).1 hid
  rw [hclosed id segment hgrows] at hopen
  cases hopen

/-! ## The index -/

section

variable (hnumbered : a.store.metadata.Numbered)
  (h : RepairsEach (growingByKey a.store.metadata.segments).toList index a b)

include hnumbered h

theorem RepairsEach.target?_iff (key : SegmentKey) (id : SegmentId) :
    index.target? key = some id ↔ a.segments.Newest key id := by
  simp only [h.target, SortedMap.mem_toList_iff]
  constructor
  · rintro ⟨group, hgroup, htarget⟩
    exact (recoveredTarget_iff hnumbered hgroup).1 htarget
  · intro hnewest
    have hsame := hnewest
    obtain ⟨segment, hgrows, -, -⟩ := hnewest
    obtain ⟨group, hgroup, -⟩ := exists_group hnumbered hgrows.stored hgrows.growing hgrows.key
    exact ⟨group, hgroup, (recoveredTarget_iff hnumbered hgroup).2 hsame⟩

theorem RepairsEach.mem_retired_iff (key : SegmentKey) (id : SegmentId) :
    id ∈ index.retired key ↔
      (∃ segment, a.segments.Grows key id segment) ∧ ¬ a.segments.Newest key id := by
  simp only [h.retired, SortedMap.mem_toList_iff]
  constructor
  · rintro ⟨group, hgroup, ⟨segment, hmem, rfl⟩, htarget⟩
    refine ⟨⟨segment, (mem_group_iff_grows hnumbered hgroup).1 hmem⟩, fun hnewest => htarget ?_⟩
    exact (recoveredTarget_iff hnumbered hgroup).2 hnewest
  · rintro ⟨⟨segment, hgrows⟩, holder⟩
    obtain ⟨group, hgroup, hmem⟩ := exists_group hnumbered hgrows.stored hgrows.growing hgrows.key
    refine ⟨group, hgroup, ⟨segment, hmem, hnumbered id segment hgrows.stored⟩, fun htarget => ?_⟩
    exact holder ((recoveredTarget_iff hnumbered hgroup).1 htarget)

theorem RepairsEach.contains_iff (key : SegmentKey) :
    index.contains key = true ↔ key ∈ a.growingKeys := by
  simp only [h.tracked, SortedMap.mem_toList_iff]
  constructor
  · rintro ⟨group, hgroup⟩
    obtain ⟨segment, hmem⟩ := exists_mem_group hgroup
    exact ⟨segment.id, segment, (mem_group_iff_grows hnumbered hgroup).1 hmem⟩
  · rintro ⟨id, segment, hgrows⟩
    obtain ⟨group, hgroup, -⟩ := exists_group hnumbered hgrows.stored hgrows.growing hgrows.key
    exact ⟨group, hgroup⟩

theorem RepairsEach.size_eq : index.size = a.growingKeys.ncard := by
  have hkeys : a.growingKeys = (index.keys.toFinset : Set SegmentKey) := by
    ext key
    rw [← h.contains_iff hnumbered key, SortedMap.contains_iff, List.coe_toFinset, Set.mem_ofPred_eq,
      SortedMap.mem_keys_iff]
  rw [hkeys, Set.ncard_coe_finset, List.toFinset_card_of_nodup index.nodup_keys]
  exact (List.length_map _).symm

/-- All that was outdated has been superseded once every group has been gone through. -/
theorem RepairsEach.not_outdated (hpartly : a.PartlyRepaired b) (id : SegmentId)
    (segment : Segment) : ¬ b.segments.Outdated id segment := by
  intro houtdated
  have hbefore := hpartly.outdated_before houtdated
  obtain ⟨group, hgroup, hmem⟩ := exists_group hnumbered hbefore.stored hbefore.growing rfl
  have hretires : Retires (recoveredTarget group) group id := by
    refine ⟨⟨segment, hmem, hnumbered id segment hbefore.stored⟩, fun htarget => ?_⟩
    exact hbefore.older ((recoveredTarget_iff hnumbered hgroup).1 htarget)
  have hplace := h.moved segment.key group id (SortedMap.mem_toList_iff.2 hgroup) hretires
  obtain ⟨found, hget, -, -, hflag⟩ := Segments.place?_eq_some_iff.1 hplace
  cases houtdated.stored.symm.trans hget
  rw [houtdated.opened] at hflag
  cases hflag

end

/-! ## What recovery does -/

/-- Segments are listed, and calls to change them are not refused. -/
structure Recoverable (a : Allocator) : Prop where
  writable : a.store.Writable
  listed : a.store.faults.list = false

theorem isLeast_latestSealing (hnumbered : a.store.metadata.Numbered) :
    IsLeast {bound | a.watermark ≤ bound ∧ SealedBy bound a.segments}
      (max a.watermark (latestSealing a.store.metadata.segments)) := by
  refine ⟨⟨Word.le_max_left _ _, ?_⟩, fun bound hbound => ?_⟩
  · exact (sealedBy_latestSealing hnumbered).mono (Word.le_max_right _ _)
  · exact Word.max_le hbound.1 (latestSealing_le hnumbered hbound.2)

/-- The index is put in place, and the watermark raised, when all groups have been repaired. -/
theorem RepairsEach.rebuilt (hnumbered : a.store.metadata.Numbered)
    (h : RepairsEach (growingByKey a.store.metadata.segments).toList index a b)
    (hsuperseded : a.Supersedings b) :
    a.Rebuilt index.size { b with
      index
      watermark := max b.watermark (latestSealing a.store.metadata.segments) } where
  target := h.target?_iff hnumbered
  retired := h.mem_retired_iff hnumbered
  tracked := h.contains_iff hnumbered
  untargeted key := target?_eq_none (h.target?_iff hnumbered key)
  repaired := by
    have hpartly : a.PartlyRepaired { b with
        index
        watermark := max b.watermark (latestSealing a.store.metadata.segments) } :=
      hsuperseded.partly.trans (.of_same rfl fun _ => rfl)
    have hnone := h.not_outdated hnumbered hsuperseded.partly
    exact hpartly.repaired hnumbered hnone
  watermark := by
    rw [hsuperseded.watermark]
    exact isLeast_latestSealing hnumbered
  count := h.size_eq hnumbered

/-- A recovery repairs everything, or it supersedes what is outdated until it is refused. -/
theorem ensures_recoverVia (hnumbered : a.store.metadata.Numbered) (order : VisitOrder) :
    Ensures (recoverVia order) a (fun count b => a.Rebuilt count b ∧ a.Spares b)
      (fun _ b => a.Supersedings b ∧ ¬ a.Recoverable) := by
  rw [recoverVia, ensures_bind, ensures_get, ensures_bind, ensures_ofExcept, GuardedStore.segments]
  cases hlist : a.store.faults.list with
  | true =>
    refine ⟨fun _ hok => ?_, fun _ _ => ⟨.refl a, fun hrecoverable => ?_⟩⟩
    · cases hok
    · cases hlist.symm.trans hrecoverable.listed
  | false =>
    refine ⟨fun segments hsegments => ?_, fun _ herror => by cases herror⟩
    cases hsegments
    have hgroups := order.perm (growingByKey a.store.metadata.segments).toList
    have hdistinct : ((order.visit (growingByKey a.store.metadata.segments).toList).map
        (·.1)).Nodup := (hgroups.map _).nodup_iff.2 (SortedMap.nodup_keys _)
    have hrepair := ensures_repair (a := a) _ hdistinct fun key group hmem =>
      lists_growingByKey hnumbered ((order.mem_visit_iff _ group).1 hmem)
    have hpreserves := preserves_repair (a := a) (order.visit
      (growingByKey a.store.metadata.segments).toList) fun key group hmem segment hsegment =>
        outdated_of_mem_group hnumbered ((order.mem_visit_iff _ group).1 hmem) hsegment
    rw [ensures_bind]
    apply (hrepair.and (hpreserves a (.refl a))).imp
    · rintro index b ⟨hvisited, hsuperseded⟩
      exact ⟨(hvisited.of_perm hgroups).rebuilt hnumbered hsuperseded,
        hsuperseded.spares.trans ⟨rfl, rfl, fun _ _ => rfl, rfl⟩⟩
    · rintro e b ⟨⟨-, hnot⟩, hsuperseded⟩
      exact ⟨hsuperseded, fun hrecoverable => hnot ⟨hnumbered, hrecoverable.writable⟩⟩

/-- A recovery that is not refused anything succeeds. -/
theorem Recoverable.exists_ok (h : a.Recoverable) (hnumbered : a.store.metadata.Numbered)
    (order : VisitOrder) : ∃ count b, recoverVia order a = .ok count b := by
  cases hresult : recoverVia order a with
  | ok count b => exact ⟨count, b, rfl⟩
  | error e b => exact absurd h ((ensures_recoverVia hnumbered order).error hresult).2

/-! ## One outcome -/

theorem PartlyRepaired.growingKeys_eq (h : a.PartlyRepaired b) : b.growingKeys = a.growingKeys :=
  Set.ext fun _ => exists_congr fun _ => h.exists_grows_iff

/-- A recovery that goes on where others have stopped ends as if there had been no others. -/
theorem Rebuilt.of_partlyRepaired (h' : b.Rebuilt count c) (h : a.PartlyRepaired b)
    (hwatermark : b.watermark = a.watermark) (hnumbered : a.store.metadata.Numbered) :
    a.Rebuilt count c := by
  have htarget (key : SegmentKey) (id : SegmentId) :
      c.index.target? key = some id ↔ a.segments.Newest key id :=
    (h'.target key id).trans (h.newest_iff hnumbered)
  refine ⟨htarget, ?_, ?_, fun key => target?_eq_none (htarget key), ?_, ?_, ?_⟩
  · intro key id
    rw [h'.retired, h.exists_grows_iff, h.newest_iff hnumbered]
  · intro key
    rw [h'.tracked, h.growingKeys_eq]
  · exact h.trans_repaired h'.repaired hnumbered
  · have hleast := h'.watermark
    simp only [h.sealedBy_iff, hwatermark] at hleast
    exact hleast
  · rw [h'.count, h.growingKeys_eq]

/-- Index, watermark and records are the same, in memory and in the backend. -/
structure Alike (a b : Allocator) : Prop where
  index : b.index = a.index
  watermark : b.watermark = a.watermark
  collections : b.store.metadata.records.collections = a.store.metadata.records.collections
  segments : b.segments = a.segments
  cell : ∀ id, b.cell? id = a.cell? id

/-- A recovery has one outcome. -/
theorem Rebuilt.unique {count' : Nat} (h : a.Rebuilt count b) (h' : a.Rebuilt count' c)
    (hcollections : c.store.metadata.records.collections =
      b.store.metadata.records.collections) : count' = count ∧ b.Alike c := by
  obtain ⟨hsegments, hcells⟩ := h'.repaired.unique h.repaired
  refine ⟨h'.count.trans h.count.symm, ?_, ?_, hcollections, hsegments, hcells⟩
  · apply KeyIndex.ext_lookups
    · intro key
      rw [Bool.eq_iff_iff, h'.tracked, h.tracked]
    · intro key
      exact Option.ext fun id => (h'.target key id).trans (h.target key id).symm
    · intro key id
      exact (h'.retired key id).trans (h.retired key id).symm
  · exact UInt64.le_antisymm (h'.watermark.2 h.watermark.1) (h.watermark.2 h'.watermark.1)

/-! ## Attempts -/

/-- Something may happen around an allocator, and calls may be made to fail, or not any more. -/
def Shifts (a b : Allocator) : Prop :=
  Surroundings { a with store.faults := b.store.faults } b

/-- Attempts at a recovery, all of which fail, each in an order of its own. -/
inductive Attempts (a : Allocator) : Allocator → Prop where
  | none : Attempts a a
  | failed {b c : Allocator} {e : Error} (h : Attempts a b) (order : VisitOrder)
    (hfailed : recoverVia order b = .error e c) : Attempts a c
  | shifts {b c : Allocator} (h : Attempts a b) (hshifts : b.Shifts c) : Attempts a c

/-- Some outdated segments have been superseded, whatever has happened around the allocator. -/
structure Interrupted (a b : Allocator) : Prop where
  partly : a.PartlyRepaired b
  index : b.index = a.index
  watermark : b.watermark = a.watermark
  collections : b.store.metadata.records.collections = a.store.metadata.records.collections

theorem Shifts.interrupted (h : a.Shifts b) : a.Interrupted b where
  partly := by
    refine .of_same (congrArg Records.segments h.records) fun id => ?_
    rw [cell?, h.root]
    exact h.entries _ (.inr (Root.startsWith_segment _ id))
  index := h.index
  watermark := h.watermark
  collections := congrArg Records.collections h.records

theorem Supersedings.interrupted (h : a.Supersedings b) : a.Interrupted b :=
  ⟨h.partly, h.index, h.watermark, h.spares.collections⟩

theorem Interrupted.trans (h : a.Interrupted b) (h' : b.Interrupted c) : a.Interrupted c :=
  ⟨h.partly.trans h'.partly, h'.index.trans h.index, h'.watermark.trans h.watermark,
    h'.collections.trans h.collections⟩

/-- However many attempts have failed, no more than outdated segments has been superseded. -/
theorem Attempts.interrupted (h : a.Attempts b) (hnumbered : a.store.metadata.Numbered) :
    a.Interrupted b := by
  induction h with
  | none => exact (Supersedings.refl a).interrupted
  | failed h order hfailed ih =>
    have hrefused := (ensures_recoverVia (ih.partly.numbered hnumbered) order).error hfailed
    exact ih.trans hrefused.1.interrupted
  | shifts h hshifts ih => exact ih.trans hshifts.interrupted

/-- A recovery after such attempts does what it would have done before them. -/
theorem Interrupted.rebuilt (h : a.Interrupted b) (hnumbered : a.store.metadata.Numbered)
    (hok : recoverVia order b = .ok count c) : a.Rebuilt count c ∧
      c.store.metadata.records.collections = a.store.metadata.records.collections := by
  obtain ⟨hrebuilt, hspares⟩ := (ensures_recoverVia (h.partly.numbered hnumbered) order).ok hok
  exact ⟨hrebuilt.of_partlyRepaired h.partly h.watermark hnumbered,
    hspares.collections.trans h.collections⟩

/--
Whatever segments are stored, a recovery in any order of the keys rebuilds the index from
them, or it breaks off with index and watermark as they were; it succeeds if nothing is
refused. The same holds after any number of attempts that failed, and the one that then
succeeds ends as a single recovery would have ended.
-/
theorem recovery_can_be_retried (hnumbered : a.store.metadata.Numbered) :
    recover = recoverVia .ascending ∧
    (∀ order, Ensures (recoverVia order) a (fun count b => a.Rebuilt count b ∧ a.Spares b)
      (fun _ b => a.Supersedings b)) ∧
    ∀ b, a.Attempts b → a.Interrupted b ∧
      (b.Recoverable → ∀ order, ∃ count c, recoverVia order b = .ok count c) ∧
      ∀ order count c, recoverVia order b = .ok count c → a.Rebuilt count c ∧
        ∀ a' order' count' c', a.Shifts a' → recoverVia order' a' = .ok count' c' →
          count' = count ∧ c.Alike c' := by
  refine ⟨recoverVia_ascending.symm, fun order => ?_, fun b hattempts => ?_⟩
  · exact (ensures_recoverVia hnumbered order).imp (fun _ _ h => h) fun _ _ h => h.1
  · have hinterrupted := hattempts.interrupted hnumbered
    refine ⟨hinterrupted, fun hrecoverable => ?_, fun order count c hok => ?_⟩
    · exact hrecoverable.exists_ok (hinterrupted.partly.numbered hnumbered)
    · obtain ⟨hrebuilt, hcollections⟩ := hinterrupted.rebuilt hnumbered hok
      refine ⟨hrebuilt, fun a' order' count' c' hshifts hok' => ?_⟩
      obtain ⟨hrebuilt', hcollections'⟩ := hshifts.interrupted.rebuilt hnumbered hok'
      exact hrebuilt.unique hrebuilt' (hcollections'.trans hcollections.symm)

/-- A segment of ten rows that grows for a channel. -/
def grown (id : SegmentId) (channel : String) (openTime : Timestamp) : Segment :=
  { Segment.fresh id ⟨⟨1⟩, ⟨2⟩, channel⟩ "group" none 10 openTime with state := .growing }

/--
Three segments that grow for one channel, two of them opened at the same time, a
superseded one of another channel, and one that is sealed.
-/
def untidySegments : List Segment :=
  [grown ⟨7⟩ "a" 5, grown ⟨8⟩ "a" 5, grown ⟨9⟩ "a" 6,
    { grown ⟨10⟩ "b" 5 with superseded := true },
    { grown ⟨11⟩ "c" 5 with state := .sealed, sealedTime := 20 }]

/-- Such segments are stored, and writes of one of them are made to fail. -/
def untidy : Allocator :=
  { onMemory with
    store.metadata.records.segments :=
      .ofList (untidySegments.map fun segment => (segment.id, segment))
    store.faults.update := .ofElems [⟨8⟩] }

/-- No calls are made to fail any more. -/
def mended (a : Allocator) : Allocator :=
  { a with store.faults := {} }

theorem growingByKey_untidy : (growingByKey untidySegments).toList =
    [(⟨⟨1⟩, ⟨2⟩, "a"⟩, [grown ⟨7⟩ "a" 5, grown ⟨8⟩ "a" 5, grown ⟨9⟩ "a" 6]),
      (⟨⟨1⟩, ⟨2⟩, "b"⟩, [{ grown ⟨10⟩ "b" 5 with superseded := true }])] := by
  have hgroups : ((untidySegments.filter fun segment => segment.state == .growing).foldl
      (fun (groups : SortedMap SegmentKey (List Segment)) segment =>
        groups.insert segment.key ((groups.get? segment.key).getD [] ++ [segment])) .empty).toList =
      [(⟨⟨1⟩, ⟨2⟩, "a"⟩, [grown ⟨7⟩ "a" 5, grown ⟨8⟩ "a" 5, grown ⟨9⟩ "a" 6]),
        (⟨⟨1⟩, ⟨2⟩, "b"⟩, [{ grown ⟨10⟩ "b" 5 with superseded := true }])] := by
    decide +kernel
  have hsorted : [grown ⟨7⟩ "a" 5, grown ⟨8⟩ "a" 5, grown ⟨9⟩ "a" 6].mergeSort openedBefore =
      [grown ⟨7⟩ "a" 5, grown ⟨8⟩ "a" 5, grown ⟨9⟩ "a" 6] :=
    List.mergeSort_of_pairwise (by decide)
  rw [growingByKey, SortedMap.map]
  dsimp only
  rw [hgroups, List.map_cons, List.map_cons, List.map_nil, hsorted, List.mergeSort_singleton]

/-- A recovery is refused what the repair of the groups is refused. -/
theorem recover_eq_error {e : Error} (hlist : a.store.faults.list = false)
    (h : repair (growingByKey a.store.metadata.segments).toList a = .error e b) :
    recover a = .error e b := by
  have hlisted : a.store.segments = .ok a.store.metadata.segments := by
    rw [GuardedStore.segments, hlist]
    rfl
  change (ofExcept a.store.segments >>= fun segments =>
    repair (growingByKey segments).toList >>= _) a = _
  rw [hlisted]
  change EStateM.bind (repair (growingByKey a.store.metadata.segments).toList) _ a = _
  rw [EStateM.bind, h]

/-- The first attempt supersedes one segment and is refused the next. -/
theorem recover_untidy : ∃ e b, recover untidy = .error e b ∧ b.mended.Recoverable ∧
    b.segments.place? ⟨7⟩ = some (⟨⟨1⟩, ⟨2⟩, "a"⟩, true) ∧
    b.segments.place? ⟨8⟩ = some (⟨⟨1⟩, ⟨2⟩, "a"⟩, false) := by
  have hrepair : ∃ e b, repair
      [(⟨⟨1⟩, ⟨2⟩, "a"⟩, [grown ⟨7⟩ "a" 5, grown ⟨8⟩ "a" 5, grown ⟨9⟩ "a" 6]),
        (⟨⟨1⟩, ⟨2⟩, "b"⟩, [{ grown ⟨10⟩ "b" 5 with superseded := true }])] untidy = .error e b ∧
      b.mended.Recoverable ∧ b.segments.place? ⟨7⟩ = some (⟨⟨1⟩, ⟨2⟩, "a"⟩, true) ∧
      b.segments.place? ⟨8⟩ = some (⟨⟨1⟩, ⟨2⟩, "a"⟩, false) :=
    ⟨_, _, rfl, ⟨⟨⟨rfl, rfl, rfl⟩, rfl⟩, rfl⟩, by decide +kernel, by decide +kernel⟩
  obtain ⟨e, b, hrepair, hplaces⟩ := hrepair
  have hsegments : untidy.store.metadata.segments = untidySegments := rfl
  rw [← growingByKey_untidy, ← hsegments] at hrepair
  exact ⟨e, b, recover_eq_error rfl hrepair, hplaces⟩

theorem numbered_untidy : untidy.store.metadata.Numbered :=
  Metadata.numbered_ofList rfl

theorem newest_untidy : untidy.segments.Newest ⟨⟨1⟩, ⟨2⟩, "a"⟩ ⟨9⟩ := by
  have hgroup : (growingByKey untidy.store.metadata.segments).get? ⟨⟨1⟩, ⟨2⟩, "a"⟩ =
      some [grown ⟨7⟩ "a" 5, grown ⟨8⟩ "a" 5, grown ⟨9⟩ "a" 6] := by
    rw [← SortedMap.mem_toList_iff]
    change _ ∈ (growingByKey untidySegments).toList
    rw [growingByKey_untidy]
    exact List.mem_cons_self
  exact (recoveredTarget_iff numbered_untidy hgroup).1 (by decide)

/--
The attempt fails that is made while writes of the second segment are made to fail. The
next one succeeds, and what was opened last becomes the target.
-/
theorem untidy_is_recovered : ∃ e b count c, recover untidy = .error e b ∧
    b.segments.place? ⟨7⟩ = some (⟨⟨1⟩, ⟨2⟩, "a"⟩, true) ∧
    b.segments.place? ⟨8⟩ = some (⟨⟨1⟩, ⟨2⟩, "a"⟩, false) ∧
    recover b.mended = .ok count c ∧ c.index.target? ⟨⟨1⟩, ⟨2⟩, "a"⟩ = some ⟨9⟩ ∧
    ∃ c', recover untidy.mended = .ok count c' ∧ c.Alike c' := by
  obtain ⟨e, b, hfailed, hrecoverable, hplaces⟩ := recover_untidy
  have hattempts : untidy.Attempts b.mended :=
    (Attempts.none.failed .ascending hfailed).shifts (.refl _)
  obtain ⟨-, -, hretry⟩ := recovery_can_be_retried numbered_untidy
  obtain ⟨-, hsucceeds, hsame⟩ := hretry b.mended hattempts
  obtain ⟨count, c, hok⟩ := hsucceeds hrecoverable .ascending
  obtain ⟨hrebuilt, hunique⟩ := hsame .ascending count c hok
  have htarget := (hrebuilt.target _ _).2 newest_untidy
  -- Without faults from the beginning, the first attempt would have succeeded.
  have hmended : untidy.Attempts untidy.mended := Attempts.none.shifts (.refl _)
  obtain ⟨count', c', hok'⟩ :=
    (hretry untidy.mended hmended).2.1 ⟨⟨⟨rfl, rfl, rfl⟩, rfl⟩, rfl⟩ .ascending
  obtain ⟨rfl, halike⟩ := hunique untidy.mended .ascending count' c' (.refl _) hok'
  exact ⟨e, b, _, c, hfailed, hplaces.1, hplaces.2, hok, htarget, c', hok', halike⟩

end IngestCoordinator.Allocator
