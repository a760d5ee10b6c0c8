-- SUMMARY: Segment records: capacity, grants, sealing and statistics of one segment.
import IngestCoordinator.Error
import IngestCoordinator.Segment.Ledger

/-!
# Segments

A segment takes rows of one key up to a capacity. Rows are granted from the front:
the next offset is the number of rows granted so far. A grant expires, and a
segment is sealed only at a time when all its grants have expired. A growing
segment may be superseded: it then takes no further rows but is not sealed yet.
-/

namespace IngestCoordinator

/-- A segment as it is stored. -/
structure Segment where
  id : SegmentId
  collection : CollectionId
  partition : PartitionId
  channel : String
  /-- The group that the insert channel belongs to. -/
  group : String
  /-- The node that watched the group when the segment was opened. -/
  node : Option NodeId
  state : SegmentState
  openTime : Timestamp
  sealedTime : Timestamp
  flushedTime : Timestamp
  /-- The number of rows the segment may take. -/
  capacity : UInt64
  /-- The next row to grant, and so the number of rows granted. -/
  nextOffset : UInt64
  /-- When the last of the grants expires. -/
  lastExpireTime : Timestamp
  superseded : Bool
  /-- The number of rows reported as written. -/
  numRows : UInt64
  /-- The memory reported as used, in bytes. -/
  memSize : UInt64
  ledger : Ledger
  deriving DecidableEq, Repr

namespace Segment

/-- A segment that has been built and not opened yet. -/
def fresh (id : SegmentId) (key : SegmentKey) (group : String) (node : Option NodeId)
    (capacity : UInt64) (openTime : Timestamp) : Segment where
  id := id
  collection := key.collection
  partition := key.partition
  channel := key.channel
  group := group
  node := node
  state := .new
  openTime := openTime
  sealedTime := 0
  flushedTime := 0
  capacity := capacity
  nextOffset := 0
  lastExpireTime := 0
  superseded := false
  numRows := 0
  memSize := 0
  ledger := {}

/-- The key whose rows the segment takes. -/
def key (segment : Segment) : SegmentKey :=
  ⟨segment.collection, segment.partition, segment.channel⟩

/-- The number of rows that can still be granted. -/
def remaining (segment : Segment) : UInt64 :=
  Saturating.sub segment.capacity segment.nextOffset

/-- Growing, not superseded, and with room for at least one row. -/
def isAllocatable (segment : Segment) : Bool :=
  segment.state == .growing && !segment.superseded && 0 < segment.remaining

/-- Every grant on the segment has expired at the watermark. -/
def isSafeToSeal (segment : Segment) (watermark : Timestamp) : Bool :=
  segment.lastExpireTime ≤ watermark

/-- Full, or past the given share of its row capacity or of the segment size. -/
def reachedSealThreshold (segment : Segment) (proportion : Float) (sizeBytes : UInt64) : Bool :=
  segment.nextOffset ≥ segment.capacity ||
    segment.numRows.toFloat ≥ proportion * segment.capacity.toFloat ||
    segment.memSize.toFloat ≥ proportion * sizeBytes.toFloat

/--
Applies a statistics report once: its rows are added, and its memory size counts
if no report with a higher sequence number has been applied. Says whether the
report was new. `none` if recording its number overflows.
-/
def applyReport? (segment : Segment) (seq rowDelta memSize : UInt64) : Option (Bool × Segment) :=
  (segment.ledger.record? seq).map fun
    | (false, _) => (false, segment)
    | (true, ledger) =>
      let latest := seq > segment.ledger.sizeSeq
      (true, { segment with
        numRows := Saturating.add segment.numRows rowDelta
        memSize := if latest then memSize else segment.memSize
        ledger := if latest then { ledger with sizeSeq := seq } else ledger })

/-! ## Records -/

def fieldNames : List String :=
  ["segment_id", "collection_id", "partition_id", "insert_channel", "channel_group", "node_id",
    "state", "open_time", "sealed_time", "flushed_time", "capacity", "next_offset",
    "last_expire_time", "superseded", "num_rows", "mem_size", "stats"]

def toJson (segment : Segment) : Json :=
  .record [
    ("segment_id", segment.id.toJson),
    ("collection_id", segment.collection.toJson),
    ("partition_id", segment.partition.toJson),
    ("insert_channel", .ofString segment.channel),
    ("channel_group", .ofString segment.group),
    ("node_id", .ofOption Identifier.toJson segment.node),
    ("state", segment.state.toJson),
    ("open_time", .ofNat segment.openTime.toNat),
    ("sealed_time", .ofNat segment.sealedTime.toNat),
    ("flushed_time", .ofNat segment.flushedTime.toNat),
    ("capacity", .ofNat segment.capacity.toNat),
    ("next_offset", .ofNat segment.nextOffset.toNat),
    ("last_expire_time", .ofNat segment.lastExpireTime.toNat),
    ("superseded", .bool segment.superseded),
    ("num_rows", .ofNat segment.numRows.toNat),
    ("mem_size", .ofNat segment.memSize.toNat),
    ("stats", segment.ledger.toJson)]

def ofJson? (value : Json) : Option Segment := do
  let fields ← Json.Fields.ofJson? fieldNames value
  return {
    id := ← fields.required "segment_id" Identifier.ofJson?
    collection := ← fields.required "collection_id" Identifier.ofJson?
    partition := ← fields.required "partition_id" Identifier.ofJson?
    channel := ← fields.required "insert_channel" Json.string?
    group := ← fields.required "channel_group" Json.string?
    node := ← fields.optional "node_id" Identifier.ofJson?
    state := ← fields.required "state" SegmentState.ofJson?
    openTime := ← fields.required "open_time" Json.uint64?
    sealedTime := ← fields.required "sealed_time" Json.uint64?
    flushedTime := ← fields.required "flushed_time" Json.uint64?
    capacity := ← fields.required "capacity" Json.uint64?
    nextOffset := ← fields.required "next_offset" Json.uint64?
    lastExpireTime := ← fields.required "last_expire_time" Json.uint64?
    superseded := ← fields.defaulted "superseded" false Json.bool?
    numRows := ← fields.required "num_rows" Json.uint64?
    memSize := ← fields.required "mem_size" Json.uint64?
    ledger := ← fields.defaulted "stats" {} Ledger.ofJson? }

end Segment

end IngestCoordinator
