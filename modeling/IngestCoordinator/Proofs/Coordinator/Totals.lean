-- SUMMARY: The totals of the partitions of a collection add up to its own.
import IngestCoordinator.Proofs.Coordinator.InsertChannels
import Mathlib.Data.List.Basic

/-!
# Totals of a collection

Totals are added up segment by segment and stay at the largest word once they get there.
What comes out is the exact sum, cut off once, so neither the order of the segments nor a
division of them into partitions makes a difference.
-/

namespace IngestCoordinator

/-- Totals put together, one after the other. -/
def Totals.sum (parts : List Totals) : Totals :=
  parts.foldl Totals.add {}

/-- What one segment adds to a total. -/
def Segment.totals (segment : Segment) : Totals :=
  ⟨segment.numRows, segment.memSize⟩

/-- The exact sums over some segments, or the largest word where it is less. -/
structure Totals.Covers (totals : Totals) (segments : List Segment) : Prop where
  numRows : totals.numRows.toNat =
    min 0xFFFFFFFFFFFFFFFF (segments.map fun segment => segment.numRows.toNat).sum
  memSize : totals.memSize.toNat =
    min 0xFFFFFFFFFFFFFFFF (segments.map fun segment => segment.memSize.toNat).sum

namespace Totals

variable {totals other start : Totals} {segments rest before : List Segment}

/-- Segments determine their totals. -/
theorem Covers.unique (h : totals.Covers segments) (h' : other.Covers segments) :
    totals = other := by
  have hrows := UInt64.toNat_inj.1 (h.numRows.trans h'.numRows.symm)
  have hmemory := UInt64.toNat_inj.1 (h.memSize.trans h'.memSize.symm)
  cases totals
  cases other
  simp_all only

theorem Covers.of_perm (h : totals.Covers segments) (hperm : segments.Perm rest) :
    totals.Covers rest where
  numRows := by rw [h.numRows, (hperm.map _).sum_nat]
  memSize := by rw [h.memSize, (hperm.map _).sum_nat]

theorem covers_nil : ({} : Totals).Covers [] := ⟨rfl, rfl⟩

theorem covers_singleton (segment : Segment) : segment.totals.Covers [segment] := by
  have hrows := segment.numRows.toNat_lt
  have hmemory := segment.memSize.toNat_lt
  constructor
  · simp only [Segment.totals, List.map_cons, List.map_nil, List.sum_cons, List.sum_nil]
    omega
  · simp only [Segment.totals, List.map_cons, List.map_nil, List.sum_cons, List.sum_nil]
    omega

/-- A sum that is cut off twice is the exact sum, cut off once. -/
theorem Covers.add (h : totals.Covers segments) (h' : other.Covers rest) :
    (totals.add other).Covers (segments ++ rest) where
  numRows := by
    rw [Totals.add, Saturating.toNat_add, h.numRows, h'.numRows, List.map_append,
      List.sum_append_nat]
    omega
  memSize := by
    rw [Totals.add, Saturating.toNat_add, h.memSize, h'.memSize, List.map_append,
      List.sum_append_nat]
    omega

/-- Adding up goes on from any totals. -/
theorem Covers.foldl {part : α → Totals} {pieces : α → List Segment} {keys : List α}
    (hparts : ∀ key ∈ keys, (part key).Covers (pieces key)) (hstart : start.Covers before) :
    ((keys.map part).foldl Totals.add start).Covers (before ++ keys.flatMap pieces) := by
  induction keys generalizing start before with
  | nil => simpa only [List.map_nil, List.foldl_nil, List.flatMap_nil, List.append_nil] using hstart
  | cons key keys ih =>
    obtain ⟨hpart, hparts⟩ := List.forall_mem_cons.1 hparts
    rw [List.map_cons, List.foldl_cons, List.flatMap_cons, ← List.append_assoc]
    exact ih hparts (hstart.add hpart)

theorem covers_sum {part : α → Totals} {pieces : α → List Segment} {keys : List α}
    (hparts : ∀ key ∈ keys, (part key).Covers (pieces key)) :
    (sum (keys.map part)).Covers (keys.flatMap pieces) :=
  covers_nil.foldl hparts

theorem covers_ofSegments (segments : List Segment) :
    (ofSegments segments).Covers segments := by
  have hsum : ofSegments segments = sum (segments.map Segment.totals) := by
    rw [sum, List.foldl_map]
    rfl
  have hcovers : (sum (segments.map Segment.totals)).Covers
      (segments.flatMap fun segment => [segment]) :=
    covers_sum fun segment _ => covers_singleton segment
  rwa [← hsum, List.flatMap_singleton'] at hcovers

/-! ## Partitions -/

/-- Segments put together by their partitions are the same segments in another order. -/
theorem perm_partitions {order : List PartitionId} (hnodup : order.Nodup)
    (hcovered : ∀ segment ∈ segments, segment.partition ∈ order) :
    (order.flatMap fun partition =>
      segments.filter fun segment => segment.partition == partition).Perm segments := by
  induction order generalizing segments with
  | nil =>
    have hempty : segments = [] := List.eq_nil_iff_forall_not_mem.2 fun segment h =>
      List.not_mem_nil (hcovered segment h)
    rw [hempty, List.flatMap_nil]
  | cons partition order ih =>
    obtain ⟨hfresh, hnodup⟩ := List.nodup_cons.1 hnodup
    let others := segments.filter fun segment => !(segment.partition == partition)
    -- The other partitions find the same among the segments that the first one leaves.
    have hleft : ∀ next ∈ order,
        (others.filter fun segment => segment.partition == next) =
          segments.filter fun segment => segment.partition == next := by
      intro next hnext
      rw [List.filter_filter]
      refine List.filter_congr fun segment _ => ?_
      by_cases heq : segment.partition = next
      · have hne : segment.partition ≠ partition := by rintro rfl; exact hfresh (heq ▸ hnext)
        simp [heq, heq ▸ hne]
      · simp [heq]
    have hothers : ∀ segment ∈ others, segment.partition ∈ order := by
      intro segment hsegment
      obtain ⟨hmem, hne⟩ := List.mem_filter.1 hsegment
      exact (List.mem_cons.1 (hcovered segment hmem)).resolve_left (by simpa using hne)
    rw [List.flatMap_cons, ← List.flatMap_congr hleft]
    exact ((ih hnodup hothers).append_left _).trans (List.filter_append_perm _ segments)

end Totals

namespace Coordinator

open Operation

variable {c : Coordinator} {id : CollectionId}

/-- The collection is stored, and it and the segments can be read. -/
structure Readable (c : Coordinator) (id : CollectionId) : Prop where
  stored : ∃ stored, c.store.collection? id = .ok (some stored)
  listed : c.store.faults.list = false

/-- The distinct partitions of the segments of a collection, in some order. -/
structure Partitions (c : Coordinator) (id : CollectionId) (order : List PartitionId) : Prop where
  nodup : order.Nodup
  mem_iff : ∀ partition, partition ∈ order ↔
    ∃ segment ∈ c.store.metadata.segmentsOf id, segment.partition = partition

/-- The segments of a collection in a partition. -/
def segmentsIn (c : Coordinator) (id : CollectionId) (partition : PartitionId) : List Segment :=
  (c.store.metadata.segmentsOf id).filter fun segment => segment.partition == partition

theorem segmentsOf_eq_ok (h : c.Readable id) :
    segmentsOf id c = .ok (c.store.metadata.segmentsOf id) c := by
  obtain ⟨stored, hstored⟩ := h.stored
  apply eq_ok_of_ensures
  simp [segmentsOf, ensures_of_ok (requireCollection_eq_ok hstored), GuardedStore.segmentsOf,
    h.listed]

theorem segmentsOf_eq_error (h : ¬ c.Readable id) : ∃ error, segmentsOf id c = .error error c := by
  by_cases hstored : ∃ stored, c.store.collection? id = .ok (some stored)
  · have hlist : c.store.faults.list = true := by
      cases hlist : c.store.faults.list
      · exact absurd ⟨hstored, hlist⟩ h
      · rfl
    obtain ⟨stored, hstored⟩ := hstored
    refine ⟨.storeUnavailable .listRejected, eq_error_of_ensures ?_⟩
    simp [segmentsOf, ensures_of_ok (requireCollection_eq_ok hstored), GuardedStore.segmentsOf,
      hlist]
  · obtain ⟨error, hrequire⟩ := requireCollection_eq_error hstored
    refine ⟨error, eq_error_of_ensures ?_⟩
    simp [segmentsOf, ensures_of_error hrequire]

/--
The totals of a collection are those of the partitions that occur in it, put together in
any order. Both are the exact sums over the segments in question, or the largest word if
that is less. Where one of them cannot be had, neither can the other, for the same reason.
-/
theorem totals_of_partitions (c : Coordinator) (id : CollectionId) :
    (c.Readable id → ∃ (total : Totals) (parts : PartitionId → Totals),
      collectionTotals id c = .ok total c ∧
      (∀ partition, partitionTotals id partition c = .ok (parts partition) c) ∧
      (∀ order, c.Partitions id order → total = Totals.sum (order.map parts)) ∧
      total.Covers (c.store.metadata.segmentsOf id) ∧
      ∀ partition, (parts partition).Covers (c.segmentsIn id partition)) ∧
    (¬ c.Readable id → ∃ error, collectionTotals id c = .error error c ∧
      ∀ partition, partitionTotals id partition c = .error error c) := by
  constructor
  · intro hreadable
    have hsegments := segmentsOf_eq_ok hreadable
    have hcovers := Totals.covers_ofSegments (c.store.metadata.segmentsOf id)
    refine ⟨.ofSegments (c.store.metadata.segmentsOf id),
      fun partition => .ofSegments (c.segmentsIn id partition), ?_, fun partition => ?_, ?_,
      hcovers, fun partition => Totals.covers_ofSegments _⟩
    · apply eq_ok_of_ensures
      simp [collectionTotals, ensures_of_ok hsegments]
    · apply eq_ok_of_ensures
      simp [partitionTotals, ensures_of_ok hsegments, segmentsIn]
    · intro order horder
      have hparts : (Totals.sum (order.map fun partition =>
          .ofSegments (c.segmentsIn id partition))).Covers
            (order.flatMap fun partition => c.segmentsIn id partition) :=
        Totals.covers_sum fun partition _ => Totals.covers_ofSegments _
      have hperm := Totals.perm_partitions horder.nodup
        fun segment h => (horder.mem_iff segment.partition).2 ⟨segment, h, rfl⟩
      exact hcovers.unique (hparts.of_perm hperm)
  · intro hunreadable
    obtain ⟨error, hsegments⟩ := segmentsOf_eq_error hunreadable
    refine ⟨error, ?_, fun partition => ?_⟩
    · apply eq_error_of_ensures
      simp [collectionTotals, ensures_of_error hsegments]
    · apply eq_error_of_ensures
      simp [partitionTotals, ensures_of_error hsegments]

/-- Three segments of two partitions, one of which has nearly all the rows that can be counted. -/
def nearlyCounted : Coordinator :=
  let inPartition (id : SegmentId) (partition : PartitionId) :=
    Segment.fresh id ⟨⟨1⟩, partition, "channel"⟩ "group" none 10 0
  let records : Records := {
    collections := .ofList [(⟨1⟩, ⟨⟨1⟩, ⟨"schema", [⟨"field", .int64, 0⟩]⟩, [⟨2⟩, ⟨3⟩]⟩)]
    segments := .ofList [
      (⟨1⟩, { inPartition ⟨1⟩ ⟨2⟩ with numRows := 0xFFFFFFFFFFFFFFFE, memSize := 1 }),
      (⟨2⟩, { inPartition ⟨2⟩ ⟨3⟩ with numRows := 5, memSize := 2 }),
      (⟨3⟩, { inPartition ⟨3⟩ ⟨2⟩ with numRows := 7, memSize := 3 })] }
  create {} { metadata := { backend := {}, root := ⟨"root"⟩, records } } {}
    { ddChannel := "dd", collections := .empty }

/-- The rows are past counting in one partition and so in the collection, whichever comes first. -/
theorem totals_of_partitions_nearlyCounted :
    ∃ (total : Totals) (parts : PartitionId → Totals),
      collectionTotals ⟨1⟩ nearlyCounted = .ok total nearlyCounted ∧
      partitionTotals ⟨1⟩ ⟨3⟩ nearlyCounted = .ok (parts ⟨3⟩) nearlyCounted ∧
      total = ⟨0xFFFFFFFFFFFFFFFF, 6⟩ ∧ parts ⟨3⟩ = ⟨5, 2⟩ ∧
      total = Totals.sum [parts ⟨2⟩, parts ⟨3⟩] ∧ total = Totals.sum [parts ⟨3⟩, parts ⟨2⟩] := by
  have hreadable : nearlyCounted.Readable ⟨1⟩ := ⟨⟨_, rfl⟩, rfl⟩
  have hlisted : (nearlyCounted.store.metadata.segmentsOf ⟨1⟩).map (·.partition) =
      [⟨2⟩, ⟨3⟩, ⟨2⟩] := by decide +kernel
  have horder {order : List PartitionId} (hnodup : order.Nodup)
      (hmem : ∀ partition, partition ∈ order ↔ partition = ⟨2⟩ ∨ partition = ⟨3⟩) :
      nearlyCounted.Partitions ⟨1⟩ order := by
    refine ⟨hnodup, fun partition => ?_⟩
    rw [hmem, ← List.mem_map, hlisted]
    grind
  obtain ⟨total, parts, htotal, hparts, hsum, hcovers, hpartCovers⟩ :=
    (totals_of_partitions nearlyCounted ⟨1⟩).1 hreadable
  refine ⟨total, parts, htotal, hparts ⟨3⟩, ?_, ?_, ?_, ?_⟩
  · exact hcovers.unique ⟨by decide +kernel, by decide +kernel⟩
  · exact (hpartCovers ⟨3⟩).unique ⟨by decide +kernel, by decide +kernel⟩
  · exact hsum [⟨2⟩, ⟨3⟩] (horder (by decide) (by simp))
  · exact hsum [⟨3⟩, ⟨2⟩] (horder (by decide) (by simp [or_comm]))

end Coordinator

end IngestCoordinator
