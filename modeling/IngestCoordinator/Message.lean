-- SUMMARY: What nodes report and what clients request.
import IngestCoordinator.Segment.Key
import IngestCoordinator.Timestamp

/-!
# Messages

Nodes report how far they have come in time, what they have written of a segment,
and which segments they have stored durably. Clients request rows of a key.
-/

namespace IngestCoordinator

/-- A node has processed everything up to a timestamp. -/
structure TimeTick where
  node : NodeId
  timestamp : Timestamp
  deriving DecidableEq, Repr

/-- Rows written to a segment since the report before, and the memory it now takes. -/
structure Report where
  segment : SegmentId
  /-- The number of the report among those on the segment, from 1 up. -/
  seq : UInt64
  rowDelta : UInt64
  memSize : UInt64
  deriving DecidableEq, Repr

/-- The reports that a node sends at once. -/
structure ReportBatch where
  node : NodeId
  reports : List Report
  deriving DecidableEq, Repr

/-- A sealed segment has been stored durably. -/
structure FlushCompleted where
  segment : SegmentId
  timestamp : Timestamp
  deriving DecidableEq, Repr

/-- A request for rows of a key. -/
structure RowRequest where
  key : SegmentKey
  count : UInt64
  deriving DecidableEq, Repr

/-- What became of a request to close all segments of a collection. -/
structure FlushOutcome where
  allSealed : Bool
  /-- Segments that could not be sealed yet; a later request may succeed. -/
  failed : List SegmentId
  deriving DecidableEq, Repr

/-! ## Records -/

def TimeTick.toJson (tick : TimeTick) : Json :=
  .record [("node_id", tick.node.toJson), ("timestamp", .ofNat tick.timestamp.toNat)]

def TimeTick.ofJson? (value : Json) : Option TimeTick := do
  let fields ← Json.Fields.ofJson? ["node_id", "timestamp"] value
  return {
    node := ← fields.required "node_id" Identifier.ofJson?
    timestamp := ← fields.required "timestamp" Json.uint64? }

def Report.toJson (report : Report) : Json :=
  .record [
    ("segment_id", report.segment.toJson),
    ("seq", .ofNat report.seq.toNat),
    ("row_delta", .ofNat report.rowDelta.toNat),
    ("mem_size", .ofNat report.memSize.toNat)]

def Report.ofJson? (value : Json) : Option Report := do
  let fields ← Json.Fields.ofJson? ["segment_id", "seq", "row_delta", "mem_size"] value
  return {
    segment := ← fields.required "segment_id" Identifier.ofJson?
    seq := ← fields.required "seq" Json.uint64?
    rowDelta := ← fields.required "row_delta" Json.uint64?
    memSize := ← fields.required "mem_size" Json.uint64? }

def ReportBatch.toJson (batch : ReportBatch) : Json :=
  .record [("node_id", batch.node.toJson), ("reports", .ofList Report.toJson batch.reports)]

def ReportBatch.ofJson? (value : Json) : Option ReportBatch := do
  let fields ← Json.Fields.ofJson? ["node_id", "reports"] value
  return {
    node := ← fields.required "node_id" Identifier.ofJson?
    reports := ← fields.required "reports" (Json.list? Report.ofJson?) }

def FlushCompleted.toJson (completed : FlushCompleted) : Json :=
  .record [
    ("segment_id", completed.segment.toJson),
    ("timestamp", .ofNat completed.timestamp.toNat)]

def FlushCompleted.ofJson? (value : Json) : Option FlushCompleted := do
  let fields ← Json.Fields.ofJson? ["segment_id", "timestamp"] value
  return {
    segment := ← fields.required "segment_id" Identifier.ofJson?
    timestamp := ← fields.required "timestamp" Json.uint64? }

def RowRequest.toJson (request : RowRequest) : Json :=
  .record [
    ("collection_id", request.key.collection.toJson),
    ("partition_id", request.key.partition.toJson),
    ("channel", .ofString request.key.channel),
    ("count", .ofNat request.count.toNat)]

def RowRequest.ofJson? (value : Json) : Option RowRequest := do
  let fields ← Json.Fields.ofJson? ["collection_id", "partition_id", "channel", "count"] value
  return {
    key := {
      collection := ← fields.required "collection_id" Identifier.ofJson?
      partition := ← fields.required "partition_id" Identifier.ofJson?
      channel := ← fields.required "channel" Json.string? }
    count := ← fields.required "count" Json.uint64? }

def FlushOutcome.toJson (outcome : FlushOutcome) : Json :=
  .record [
    ("all_sealed", .bool outcome.allSealed),
    ("failed_segments", .ofList Identifier.toJson outcome.failed)]

def FlushOutcome.ofJson? (value : Json) : Option FlushOutcome := do
  let fields ← Json.Fields.ofJson? ["all_sealed", "failed_segments"] value
  return {
    allSealed := ← fields.required "all_sealed" Json.bool?
    failed := ← fields.required "failed_segments" (Json.list? Identifier.ofJson?) }

end IngestCoordinator
