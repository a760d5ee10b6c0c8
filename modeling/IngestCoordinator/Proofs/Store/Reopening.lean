-- SUMMARY: Opening a store again finds the segments that were in memory.
import IngestCoordinator.Proofs.Store.Coherence
import IngestCoordinator.Proofs.Store.Mirrors

/-!
# Reopening

A coherent store whose backend answers can be opened again, and the segments in
memory are the same as before. A store that has been opened without finding a
segment is coherent.
-/

namespace IngestCoordinator

open Operation Backend

namespace Backend

theorem Same.trans {a b c : Backend} (h : a.Same b) (h' : b.Same c) : a.Same c :=
  ⟨h'.entries.trans h.entries, h'.losses.trans h.losses, h'.healthy ∘ h.healthy⟩

end Backend

namespace Metadata

variable {m m' : Metadata} {b b' : Backend} {root : Root}

/-- An entry below the root that holds no record of its kind. -/
def Spoiled (root : Root) (b : Backend) : Prop :=
  ∃ key cell, b.entries.get? key = some cell ∧
    (startsWith root.collections key = true ∧ (∀ record, ¬ Holds Collection.ofJson? cell record) ∨
      startsWith root.segments key = true ∧ ∀ record, ¬ Holds Segment.ofJson? cell record)

/-- Loading finds what the entries hold, unless one of them holds no record. -/
theorem ensures_load (root : Root) : Ensures (load root) b
    (fun records b' => b.Same b' ∧ ∃ collections segments,
      Fetched Collection.ofJson? root.collections b collections ∧
      Fetched Segment.ofJson? root.segments b segments ∧
      records = {
        collections := .ofList (collections.map fun collection => (collection.id, collection))
        segments := .ofList (segments.map fun segment => (segment.id, segment)) })
    (fun _ b' => b.Same b' ∧ (b.Healthy → Spoiled root b)) := by
  -- Both kinds of records are fetched in one way, one kind after the other.
  have hload : load root = (do
      let collections ← fetch Collection.ofJson? .collectionRecord root.collections
      let segments ← fetch Segment.ofJson? .segmentRecord root.segments
      return {
        collections := .ofList (collections.map fun collection => (collection.id, collection))
        segments := .ofList (segments.map fun segment => (segment.id, segment)) }) := by
    simp only [load, fetch, bind_assoc]
  rw [hload, ensures_bind]
  refine (ensures_fetch Collection.ofJson? .collectionRecord root.collections).imp ?_ ?_
  · rintro collections b₁ ⟨hsame₁, hcollections⟩
    rw [ensures_bind]
    refine (ensures_fetch Segment.ofJson? .segmentRecord root.segments).imp ?_ ?_
    · rintro segments b₂ ⟨hsame₂, hsegments⟩
      rw [Fetched, hsame₁.entries] at hsegments
      exact ⟨hsame₁.trans hsame₂, collections, segments, hcollections, hsegments, rfl⟩
    · rintro e b₂ ⟨hsame₂, hbad⟩
      refine ⟨hsame₁.trans hsame₂, fun hhealthy => ?_⟩
      obtain ⟨⟨key, cell⟩, hmem, hno⟩ := hbad (hsame₁.healthy hhealthy)
      rw [hsame₁.entries] at hmem
      obtain ⟨hget, hstarts⟩ := mem_scanFilter_iff.1 hmem
      exact ⟨key, cell, hget, .inr ⟨hstarts, hno⟩⟩
  · rintro e b₁ ⟨hsame₁, hbad⟩
    refine ⟨hsame₁, fun hhealthy => ?_⟩
    obtain ⟨⟨key, cell⟩, hmem, hno⟩ := hbad hhealthy
    obtain ⟨hget, hstarts⟩ := mem_scanFilter_iff.1 hmem
    exact ⟨key, cell, hget, .inl ⟨hstarts, hno⟩⟩

/-- The entries of the segments mirror those in memory. -/
theorem Coherent.mirrors (h : m.Coherent) :
    Segment.format.Mirrors m.root.segments m.backend m.records.segments :=
  ⟨h.numbered, h.stored, h.known⟩

theorem Coherent.not_spoiled (h : m.Coherent) : ¬ Spoiled m.root m.backend := by
  rintro ⟨key, cell, hget, ⟨hstarts, hno⟩ | ⟨hstarts, hno⟩⟩
  · obtain ⟨collection, hholds⟩ := h.readable hget hstarts
    exact hno collection hholds
  · obtain ⟨segment, hholds⟩ := h.mirrors.readable hget hstarts
    exact hno segment hholds

/-- Reopening a coherent store keeps its segments, and fails only on an ill backend. -/
theorem Coherent.ensures_reopen (h : m.Coherent) : Ensures reopen m
    (fun _ m' => m.SameRecords m' ∧ (m.backend.Healthy → m'.backend.Healthy))
    (fun _ m' => m.Untouched m' ∧ ¬ m.backend.Healthy) := by
  have hload := Metadata.ensures_load (b := m.backend) m.root
  unfold Ensures at hload ⊢
  unfold reopen
  split at hload
  · rename_i records b' heq
    obtain ⟨hsame, collections, segments, hcollections, hsegments, hrecords⟩ := hload
    simp only [heq]
    subst hrecords
    refine ⟨⟨rfl, h.mirrors.ofList_fetched hsegments, ?_, ?_⟩, hsame.healthy⟩
    · intro key _
      rw [hsame.entries]
    · intro key cell _ hget
      exact .inl (hsame.entries ▸ hget)
  · rename_i e b' heq
    simp only [heq]
    refine ⟨⟨rfl, rfl, hload.1.entries, hload.1.healthy⟩, fun hhealthy => ?_⟩
    exact h.not_spoiled (hload.2 hhealthy)

/-- A store is numbered if its segments are listed and then put under their numbers. -/
theorem numbered_ofList {segments : List Segment} (h : m.records.segments =
    .ofList (segments.map fun segment => (segment.id, segment))) : m.Numbered := by
  intro id segment hget
  rw [Metadata.segment?, h] at hget
  obtain ⟨segment', -, heq⟩ := List.mem_map.1 (SortedMap.mem_of_get?_ofList hget)
  cases heq
  rfl

/-- A store that has been opened holds what has been loaded. -/
theorem load_of_open (hopen : Metadata.open root b = (.ok m, b')) :
    load root b = .ok m.records b' ∧ m = ⟨b', root, m.records⟩ := by
  unfold Metadata.open at hopen
  split at hopen
  · rename_i records b₁ heq
    cases hopen
    exact ⟨heq, rfl⟩
  · cases hopen

/-- A store that has been opened without finding a segment is coherent. -/
theorem coherent_of_open (hopen : Metadata.open root b = (.ok m, b'))
    (hnone : m.records.segments = .empty) : m.Coherent := by
  obtain ⟨hload, hm⟩ := load_of_open hopen
  obtain ⟨hsame, collections, segments, hcollections, hsegments, hrecords⟩ :=
    (Metadata.ensures_load root).ok hload
  have habsent (id : SegmentId) : m.segment? id = none := by
    rw [Metadata.segment?, hnone, SortedMap.get?_empty]
  rw [hrecords] at hnone
  have hnil : segments = [] := by
    simpa using SortedMap.eq_nil_of_ofList_eq_empty hnone
  refine ⟨fun hsome => ?_, fun hsome => ?_, fun hget hstarts => ?_, fun hget hstarts => ?_⟩
  · cases (habsent _).symm.trans hsome
  · cases (habsent _).symm.trans hsome
  · rw [hm] at hget hstarts
    rw [hsame.entries] at hget
    obtain ⟨segment, hmem, _⟩ := hsegments.exists_record hget hstarts
    rw [hnil] at hmem
    cases hmem
  · rw [hm] at hget hstarts
    rw [hsame.entries] at hget
    obtain ⟨collection, _, hholds⟩ := hcollections.exists_record hget hstarts
    exact ⟨collection, hholds⟩

end Metadata

end IngestCoordinator
