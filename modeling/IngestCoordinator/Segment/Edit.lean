-- SUMMARY: Edits of segment records by hand.
import IngestCoordinator.Segment.Lifecycle

/-!
# Edits

An edit overwrites single fields of a segment record, whatever the rules of its
life say. It may also apply a report, or refuse after all, in which case nothing
is changed.
-/

namespace IngestCoordinator

/-- The fields of a segment to overwrite. -/
structure SegmentEdit where
  state : Option SegmentState := none
  nextOffset : Option UInt64 := none
  /-- Rows to add to the next offset. -/
  addOffset : Option UInt64 := none
  capacity : Option UInt64 := none
  lastExpireTime : Option Timestamp := none
  openTime : Option Timestamp := none
  sealedTime : Option Timestamp := none
  flushedTime : Option Timestamp := none
  superseded : Option Bool := none
  numRows : Option UInt64 := none
  memSize : Option UInt64 := none
  node : Option (Option NodeId) := none
  id : Option SegmentId := none
  collection : Option CollectionId := none
  partition : Option PartitionId := none
  /-- A report to apply: its number, its rows and its memory size. -/
  report : Option (UInt64 × UInt64 × UInt64) := none
  /-- The reason for refusing the edit. -/
  refusal : Option String := none
  deriving DecidableEq, Repr

/-- The segment as edited. -/
def SegmentEdit.apply (edit : SegmentEdit) (segment : Segment) : Except Error Segment := do
  let edited := { segment with
    state := edit.state.getD segment.state
    nextOffset := edit.nextOffset.getD segment.nextOffset + edit.addOffset.getD 0
    capacity := edit.capacity.getD segment.capacity
    lastExpireTime := edit.lastExpireTime.getD segment.lastExpireTime
    openTime := edit.openTime.getD segment.openTime
    sealedTime := edit.sealedTime.getD segment.sealedTime
    flushedTime := edit.flushedTime.getD segment.flushedTime
    superseded := edit.superseded.getD segment.superseded
    numRows := edit.numRows.getD segment.numRows
    memSize := edit.memSize.getD segment.memSize
    node := edit.node.getD segment.node
    id := edit.id.getD segment.id
    collection := edit.collection.getD segment.collection
    partition := edit.partition.getD segment.partition }
  let reported ←
    match edit.report with
    | none => pure edited
    | some (seq, rowDelta, memSize) => edited.report seq rowDelta memSize
  match edit.refusal with
  | none => return reported
  | some reason => throw (.invalidState (.refused reason))

namespace SegmentEdit

/-- A timestamp: a word, or an array of its milliseconds and its counter. -/
def time? : Json → Option Timestamp
  | .array [physical, logical] => do
    return .compose (← physical.uint64?) (← logical.uint64?)
  | value => value.uint64?

/-- A report: an array of its number, its rows and its memory size. -/
def report? : Json → Option (UInt64 × UInt64 × UInt64)
  | .array [seq, rowDelta, memSize] => do
    return (← seq.uint64?, ← rowDelta.uint64?, ← memSize.uint64?)
  | _ => none

/-- A field that may be left out and may not be null. -/
def given? (fields : Json.Fields) (name : String) (read? : Json → Option α) :
    Option (Option α) :=
  fields.defaulted name none fun value => (read? value).map some

/-- A node that may be null. -/
def node? : Json → Option (Option NodeId)
  | .null => some none
  | value => (Identifier.ofJson? value).map some

/-- Reads an edit: an object with the fields to overwrite. -/
def ofJson? (value : Json) : Option SegmentEdit := do
  let fields ← Json.Fields.ofJson?
    ["state", "next_offset", "add_offset", "capacity", "last_expire_time", "open_time",
      "sealed_time", "flushed_time", "superseded", "num_rows", "mem_size", "node_id",
      "segment_id", "collection_id", "partition_id", "stats", "fail"] value
  return {
    state := ← given? fields "state" SegmentState.ofJson?
    nextOffset := ← given? fields "next_offset" Json.uint64?
    addOffset := ← given? fields "add_offset" Json.uint64?
    capacity := ← given? fields "capacity" Json.uint64?
    lastExpireTime := ← given? fields "last_expire_time" time?
    openTime := ← given? fields "open_time" time?
    sealedTime := ← given? fields "sealed_time" time?
    flushedTime := ← given? fields "flushed_time" time?
    superseded := ← given? fields "superseded" Json.bool?
    numRows := ← given? fields "num_rows" Json.uint64?
    memSize := ← given? fields "mem_size" Json.uint64?
    node := ← given? fields "node_id" node?
    id := ← given? fields "segment_id" Identifier.ofJson?
    collection := ← given? fields "collection_id" Identifier.ofJson?
    partition := ← given? fields "partition_id" Identifier.ofJson?
    report := ← given? fields "stats" report?
    refusal := ← given? fields "fail" Json.string? }

end SegmentEdit

end IngestCoordinator
