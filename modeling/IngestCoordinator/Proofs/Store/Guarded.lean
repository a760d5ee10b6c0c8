-- SUMMARY: Stores that answer truthfully, and calls that leave the segments alone.
import IngestCoordinator.Catalog
import IngestCoordinator.Proofs.Store.Coherence

/-!
# Guarded stores that read truthfully

A store reads truthfully if no switch hides a segment, answers from the past or
rejects a read; its writes may still be made to fail. Adding collections and
partitions, one by one or from a catalog, never touches a segment.
-/

namespace IngestCoordinator

open Operation

namespace Metadata

theorem SameRecords.refl (m : Metadata) : m.SameRecords m :=
  (Untouched.refl m).sameRecords

theorem SameRecords.trans {m m' m'' : Metadata} (h : m.SameRecords m') (h' : m'.SameRecords m'') :
    m.SameRecords m'' where
  root := h'.root.trans h.root
  segments := h'.segments.trans h.segments
  segmentEntries key hstarts :=
    (h'.segmentEntries key (h.root ▸ hstarts)).trans (h.segmentEntries key hstarts)
  collectionEntries key cell hstarts hget := by
    rcases h'.collectionEntries key cell (h.root ▸ hstarts) hget with hold | hholds
    · exact h.collectionEntries key cell hstarts hold
    · exact .inr hholds

end Metadata

namespace GuardedStore

/-- Reads of segments answer what is stored. -/
structure Truthful (store : GuardedStore) : Prop where
  read : store.faults.read = .empty
  hidden : store.faults.hidden = .empty
  stale : store.faults.stale = .empty
  list : store.faults.list = false

variable {store store' store'' : GuardedStore}

theorem Truthful.segment?_eq (h : store.Truthful) (id : SegmentId) :
    store.segment? id = .ok (store.metadata.segment? id) := by
  simp [segment?, h.read, h.hidden, h.stale, SortedMap.contains]

theorem Truthful.segments_eq (h : store.Truthful) :
    store.segments = .ok store.metadata.segments := by
  simp [segments, h.list]

/-- The segments, their entries and the switches stand as they stood. -/
structure KeepsSegments (store store' : GuardedStore) : Prop where
  metadata : store.metadata.SameRecords store'.metadata
  healthy : store.metadata.backend.Healthy → store'.metadata.backend.Healthy
  faults : store'.faults = store.faults

theorem KeepsSegments.refl (store : GuardedStore) : store.KeepsSegments store :=
  ⟨.refl _, id, rfl⟩

theorem KeepsSegments.trans (h : store.KeepsSegments store') (h' : store'.KeepsSegments store'') :
    store.KeepsSegments store'' :=
  ⟨h.metadata.trans h'.metadata, h'.healthy ∘ h.healthy, h'.faults.trans h.faults⟩

theorem ensures_addCollection (collection : Collection) : Ensures (addCollection collection) store
    (fun _ store' => store.KeepsSegments store') (fun _ store' => store.KeepsSegments store') := by
  rw [addCollection, onMetadata, ensures_onPart]
  exact (Metadata.ensures_addCollection collection).imp
    (fun _ _ h => ⟨h.sameRecords, h.healthy, rfl⟩) fun _ _ h => ⟨h.sameRecords, h.healthy, rfl⟩

theorem ensures_addPartition (id : CollectionId) (partition : PartitionId) :
    Ensures (addPartition id partition) store
      (fun _ store' => store.KeepsSegments store')
      (fun _ store' => store.KeepsSegments store') := by
  rw [addPartition, onMetadata, ensures_onPart]
  refine (Metadata.ensures_addPartition id partition).imp (fun _ _ h => ?_)
    fun _ _ h => ⟨h.sameRecords, h.healthy, rfl⟩
  rcases h with h | ⟨collection, h⟩
  · exact ⟨h.sameRecords, h.healthy, rfl⟩
  · exact ⟨h.sameRecords, h.healthy, rfl⟩

end GuardedStore

namespace Catalog

open GuardedStore

variable {store : GuardedStore}

theorem ensures_addPartitions (id : CollectionId) (partitions : List PartitionId) :
    Ensures (partitions.forM (GuardedStore.addPartition id)) store
      (fun _ store' => store.KeepsSegments store')
      (fun _ store' => store.KeepsSegments store') := by
  induction partitions generalizing store with
  | nil => exact .refl store
  | cons partition partitions ih =>
    rw [List.forM, ensures_bind]
    refine (ensures_addPartition id partition).imp (fun _ store' h => ?_) fun _ _ h => h
    exact ih.imp (fun _ _ h' => h.trans h') fun _ _ h' => h.trans h'

theorem ensures_loadCollection (catalog : Catalog) (id : CollectionId) :
    Ensures (catalog.loadCollection id) store
      (fun _ store' => store.KeepsSegments store')
      (fun _ store' => store.KeepsSegments store') := by
  simp only [loadCollection, ensures_bind, ensures_get, ensures_ofExcept]
  refine ⟨fun partitions _ => ⟨fun found _ => ?_, fun _ _ => .refl store⟩, fun _ _ => .refl store⟩
  cases found with
  | none =>
    simp only [ensures_bind, ensures_ofExcept]
    exact ⟨fun schema _ => ensures_addCollection _, fun _ _ => .refl store⟩
  | some collection => exact ensures_addPartitions id partitions

theorem keepsSegments_loadAll (catalog : Catalog) (ids : List CollectionId)
    (store : GuardedStore) : store.KeepsSegments (catalog.loadAll ids store).2 := by
  induction ids generalizing store with
  | nil => exact .refl store
  | cons id ids ih =>
    have hfirst := @ensures_loadCollection store catalog id
    unfold Ensures at hfirst
    rw [loadAll]
    split
    · rename_i store' heq
      rw [heq] at hfirst
      exact hfirst.trans (ih store')
    · rename_i e store' heq
      rw [heq] at hfirst
      exact hfirst.trans (ih store')

/-- Loading a catalog leaves the segments alone, however far it gets. -/
theorem ensures_load (catalog : Catalog) : Ensures catalog.load store
    (fun _ store' => store.KeepsSegments store') (fun _ store' => store.KeepsSegments store') := by
  simp only [load, ensures_bind, ensures_get, ensures_ofExcept]
  exact ⟨fun ids _ => keepsSegments_loadAll catalog ids store, fun _ _ => .refl store⟩

end Catalog

end IngestCoordinator
