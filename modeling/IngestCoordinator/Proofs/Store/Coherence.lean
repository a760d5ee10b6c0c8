-- SUMMARY: The copy of the segments in memory and the entries of the backend say the same.
import IngestCoordinator.Proofs.Records
import IngestCoordinator.Proofs.SortedMap
import IngestCoordinator.Proofs.Store.Calls
import IngestCoordinator.Proofs.Store.Keys

/-!
# Coherence

A store is coherent if the entries below the root are the texts of the segments in
memory, each under its own key, and texts of collections. Every call to the store
keeps it so, whether it succeeds or not, and whatever a change does to a record.
Reopening a coherent store finds the segments that were in memory.
-/

namespace IngestCoordinator

open Operation

namespace Metadata

variable {m m' m'' : Metadata} {segment : Segment}

/-- Every segment in memory is found by its own number. -/
def Numbered (m : Metadata) : Prop :=
  ∀ id segment, m.segment? id = some segment → segment.id = id

/-- The entries below the root are the segments in memory, and collections. -/
structure Coherent (m : Metadata) : Prop where
  numbered : ∀ {id segment}, m.segment? id = some segment → segment.id = id
  stored : ∀ {id segment}, m.segment? id = some segment →
    m.backend.entries.get? (m.root.segment id) = some (.bytes segment.toJson.write)
  known : ∀ {key cell}, m.backend.entries.get? key = some cell →
    Backend.startsWith m.root.segments key = true →
      ∃ id segment, m.segment? id = some segment ∧ key = m.root.segment id
  readable : ∀ {key cell}, m.backend.entries.get? key = some cell →
    Backend.startsWith m.root.collections key = true →
      ∃ collection, Backend.Holds Collection.ofJson? cell collection

/-- The segments stand as they stood, in memory and in the backend. -/
structure Untouched (m m' : Metadata) : Prop where
  root : m'.root = m.root
  records : m'.records = m.records
  entries : m'.backend.entries = m.backend.entries
  healthy : m.backend.Healthy → m'.backend.Healthy

/-- A segment has been written, to the backend and to memory. -/
structure Stored (segment : Segment) (m m' : Metadata) : Prop where
  root : m'.root = m.root
  collections : m'.records.collections = m.records.collections
  segments : m'.records.segments = m.records.segments.insert segment.id segment
  entries : m'.backend.entries =
    m.backend.entries.insert (m.root.segment segment.id) (.bytes segment.toJson.write)
  healthy : m.backend.Healthy → m'.backend.Healthy

/-- A collection has been written, to the backend and to memory. -/
structure StoredCollection (collection : Collection) (m m' : Metadata) : Prop where
  root : m'.root = m.root
  collections : m'.records.collections = m.records.collections.insert collection.id collection
  segments : m'.records.segments = m.records.segments
  entries : m'.backend.entries =
    m.backend.entries.insert (m.root.collection collection.id) (.bytes collection.toJson.write)
  healthy : m.backend.Healthy → m'.backend.Healthy

theorem Untouched.refl (m : Metadata) : m.Untouched m :=
  ⟨rfl, rfl, rfl, id⟩

theorem Coherent.toNumbered (h : m.Coherent) : m.Numbered :=
  fun _ _ => h.numbered

theorem Untouched.numbered (h : m.Untouched m') (hnumbered : m.Numbered) : m'.Numbered := by
  intro id segment hget
  rw [Metadata.segment?, h.records] at hget
  exact hnumbered id segment hget

theorem Stored.segment? (h : Stored segment m m') (id : SegmentId) :
    m'.segment? id = if id = segment.id then some segment else m.segment? id := by
  rw [Metadata.segment?, h.segments, SortedMap.get?_insert]
  rfl

theorem Stored.numbered (h : Stored segment m m') (hnumbered : m.Numbered) : m'.Numbered := by
  intro id segment' hget
  rw [h.segment?] at hget
  split at hget
  · cases hget
    exact Eq.symm ‹_›
  · exact hnumbered id segment' hget

/-! ## What keeps a store coherent -/

/-- Outside of the records anybody may write, and the backend may fall ill or recover. -/
structure SameRecords (m m' : Metadata) : Prop where
  root : m'.root = m.root
  segments : m'.records.segments = m.records.segments
  segmentEntries : ∀ key, Backend.startsWith m.root.segments key = true →
    m'.backend.entries.get? key = m.backend.entries.get? key
  collectionEntries : ∀ key cell, Backend.startsWith m.root.collections key = true →
    m'.backend.entries.get? key = some cell →
      m.backend.entries.get? key = some cell ∨
        ∃ collection, Backend.Holds Collection.ofJson? cell collection

theorem SameRecords.segment? (h : m.SameRecords m') (id : SegmentId) :
    m'.segment? id = m.segment? id :=
  congrArg (SortedMap.get? · id) h.segments

theorem Coherent.sameRecords (h : m.Coherent) (hsame : m.SameRecords m') : m'.Coherent where
  numbered := by
    intro id segment hget
    rw [hsame.segment?] at hget
    exact h.numbered hget
  stored := by
    intro id segment hget
    rw [hsame.segment?] at hget
    rw [hsame.root, hsame.segmentEntries _ (Root.startsWith_segment ..)]
    exact h.stored hget
  known := by
    intro key cell hget hstarts
    rw [hsame.root] at hstarts ⊢
    rw [hsame.segmentEntries key hstarts] at hget
    simp only [hsame.segment?]
    exact h.known hget hstarts
  readable := by
    intro key cell hget hstarts
    rw [hsame.root] at hstarts
    rcases hsame.collectionEntries key cell hstarts hget with hold | hread
    · exact h.readable hold hstarts
    · exact hread

theorem Untouched.sameRecords (h : m.Untouched m') : m.SameRecords m' where
  root := h.root
  segments := by rw [h.records]
  segmentEntries key _ := by rw [h.entries]
  collectionEntries key cell _ hget := .inl (h.entries ▸ hget)

theorem StoredCollection.sameRecords {collection : Collection}
    (h : StoredCollection collection m m') : m.SameRecords m' where
  root := h.root
  segments := h.segments
  segmentEntries key hstarts := by
    rw [h.entries, SortedMap.get?_insert, if_neg (Root.collection_ne_of_startsWith hstarts)]
  collectionEntries key cell _ hget := by
    rw [h.entries, SortedMap.get?_insert] at hget
    split at hget
    · cases hget
      exact .inr ⟨collection, _, rfl, Collection.roundTrips.decode collection⟩
    · exact .inl hget

theorem Coherent.stored_segment (h : m.Coherent) (hstored : Stored segment m m') : m'.Coherent where
  numbered := hstored.numbered h.toNumbered _ _
  stored := by
    intro id segment' hget
    rw [hstored.segment?] at hget
    simp only [hstored.entries, hstored.root, SortedMap.get?_insert, Root.segment_inj]
    split at hget
    · cases hget
      rw [if_pos ‹_›]
    · rw [if_neg ‹_›]
      exact h.stored hget
  known := by
    intro key cell hget hstarts
    rw [hstored.root] at hstarts ⊢
    rw [hstored.entries, SortedMap.get?_insert] at hget
    -- The entry is the one that has been written, or it was there before.
    by_cases hkey : key = m.root.segment segment.id
    · exact ⟨segment.id, segment, by rw [hstored.segment?, if_pos rfl], hkey⟩
    · rw [if_neg hkey] at hget
      obtain ⟨id, old, hold, rfl⟩ := h.known hget hstarts
      have hid : id ≠ segment.id := fun heq => hkey (congrArg _ heq)
      exact ⟨id, old, by rw [hstored.segment?, if_neg hid]; exact hold, rfl⟩
  readable := by
    intro key cell hget hstarts
    rw [hstored.root] at hstarts
    rw [hstored.entries, SortedMap.get?_insert, if_neg (Root.segment_ne_of_startsWith hstarts)]
      at hget
    exact h.readable hget hstarts

/-! ## Calls -/

theorem ensures_persistSegment (segment : Segment) : Ensures (persistSegment segment) m
    (fun _ m' => Stored segment m m')
    (fun _ m' => m.Untouched m' ∧ ¬ m.backend.Healthy) := by
  simp only [persistSegment, onBackend, ensures_bind, ensures_get, ensures_onPart, ensures_modify]
  exact (Backend.ensures_put ..).imp
    (fun _ b' h => ⟨rfl, rfl, rfl, h.1, h.2⟩)
    fun _ b' h => ⟨⟨rfl, rfl, h.1.entries, h.1.healthy⟩, h.2⟩

theorem ensures_persistCollection (collection : Collection) :
    Ensures (persistCollection collection) m
      (fun _ m' => StoredCollection collection m m')
      (fun _ m' => m.Untouched m' ∧ ¬ m.backend.Healthy) := by
  simp only [persistCollection, onBackend, ensures_bind, ensures_get, ensures_onPart,
    ensures_modify]
  exact (Backend.ensures_put ..).imp
    (fun _ b' h => ⟨rfl, rfl, rfl, h.1, h.2⟩)
    fun _ b' h => ⟨⟨rfl, rfl, h.1.entries, h.1.healthy⟩, h.2⟩

/-- Changing a segment writes what the change makes of it, or does nothing at all. -/
theorem ensures_updateSegment (id : SegmentId) (change : Segment → Except Error Segment) :
    Ensures (updateSegment id change) m
      (fun updated m' => ∃ segment, m.segment? id = some segment ∧
        change segment = .ok updated ∧ updated.id = id ∧ Stored updated m m')
      (fun _ m' => m.Untouched m' ∧ ∀ segment updated, m.segment? id = some segment →
        change segment = .ok updated → updated.id = id → ¬ m.backend.Healthy) := by
  rw [updateSegment, ensures_bind, ensures_get]
  cases hget : m.segment? id with
  | none => exact ⟨.refl m, by simp⟩
  | some segment =>
    dsimp only
    rw [ensures_bind, ensures_ofExcept]
    refine ⟨fun updated hupdated => ?_, fun e herror => ⟨.refl m, fun _ _ hsome hok => ?_⟩⟩
    · split
      · rename_i hid
        refine ⟨.refl m, fun _ _ hsome hok hsame => ?_⟩
        cases hsome
        cases hok.symm.trans hupdated
        exact absurd hsame hid
      · rename_i hid
        simp only [ensures_bind, ensures_pure]
        refine (ensures_persistSegment updated).imp (fun _ m' hstored => ?_)
          fun e m' h => ⟨h.1, fun _ _ _ _ _ => h.2⟩
        exact ⟨segment, rfl, hupdated, Decidable.not_not.1 hid, hstored⟩
    · cases hsome
      cases hok.symm.trans herror

/-- Adding a segment writes it, if there was none of its number. -/
theorem ensures_addSegment (segment : Segment) : Ensures (addSegment segment) m
    (fun _ m' => m.segment? segment.id = none ∧ Stored segment m m')
    (fun _ m' => m.Untouched m') := by
  simp only [addSegment, ensures_bind, ensures_get]
  split
  · exact .refl m
  · split
    · exact .refl m
    · rename_i hnone
      refine (ensures_persistSegment segment).imp (fun _ m' hstored => ⟨?_, hstored⟩)
        fun _ _ h => h.1
      simpa using hnone

theorem ensures_addCollection (collection : Collection) : Ensures (addCollection collection) m
    (fun _ m' => StoredCollection collection m m')
    (fun _ m' => m.Untouched m') := by
  simp only [addCollection, ensures_bind, ensures_get]
  split
  · exact .refl m
  · rw [ensures_bind, ensures_ofExcept]
    exact ⟨fun _ _ => (ensures_persistCollection collection).imp (fun _ _ h => h) fun _ _ h => h.1,
      fun _ _ => .refl m⟩

theorem ensures_addPartition (id : CollectionId) (partition : PartitionId) :
    Ensures (addPartition id partition) m
      (fun _ m' => m.Untouched m' ∨ ∃ collection, StoredCollection collection m m')
      (fun _ m' => m.Untouched m') := by
  rw [addPartition, ensures_bind, ensures_get]
  cases m.collection? id with
  | none => exact .refl m
  | some collection =>
    dsimp only
    split
    · exact .inl (.refl m)
    · exact (ensures_persistCollection _).imp (fun _ _ h => .inr ⟨_, h⟩) fun _ _ h => h.1

end Metadata

end IngestCoordinator
