-- SUMMARY: The allocator's state and the calls it makes.
import IngestCoordinator.Allocator.Index
import IngestCoordinator.IdSource
import IngestCoordinator.Metrics
import IngestCoordinator.Segment.Lifecycle
import IngestCoordinator.Store.Guarded

/-!
# The allocator

The allocator grants rows of segments and brings segments from one state to the
next. It keeps an index of the growing segments beside the store that holds their
records, and the marks in time up to which it has sealed and cut off reports.
-/

namespace IngestCoordinator

/-- How large segments become and how long grants last. -/
structure Policy where
  /-- The memory that a segment is meant to take, in bytes. -/
  sizeBytes : UInt64
  /-- The share of its capacity at which a segment takes no further rows. -/
  sealProportion : Float
  grantLifetimeMs : UInt64
  deriving Repr

/-- The segments of the store and what is known about them in memory. -/
structure Allocator where
  store : GuardedStore
  ids : IdSource
  policy : Policy
  index : KeyIndex := .empty
  /-- The latest time up to which segments have been sealed. -/
  watermark : Timestamp := 0
  /-- Reports on segments flushed up to this time are stale. -/
  cutoff : Timestamp := 0
  metrics : SegmentMetrics := {}
  deriving Repr

namespace Allocator

/-- An allocator that has nothing in memory, over the same store and id source. -/
def restarted (allocator : Allocator) : Allocator :=
  { allocator with index := .empty, watermark := 0, cutoff := 0 }

/-- Makes a call to the store. -/
def onStore (call : Operation GuardedStore α) : Operation Allocator α :=
  call.onPart Allocator.store fun allocator store => { allocator with store }

/-- Makes a call to the id source. -/
def onIds (call : Operation IdSource α) : Operation Allocator α :=
  call.onPart Allocator.ids fun allocator ids => { allocator with ids }

/-- A segment by its number. -/
def segment? (id : SegmentId) : Operation Allocator (Option Segment) := do
  ofExcept ((← get).store.segment? id)

/-- Changes a stored segment. -/
def update (id : SegmentId) (change : Segment → Except Error Segment) :
    Operation Allocator Segment :=
  onStore (GuardedStore.updateSegment id change)

/-- Changes the index. -/
def reindex (change : KeyIndex → KeyIndex) : Operation Allocator Unit :=
  modify fun allocator => { allocator with index := change allocator.index }

/-- Changes the metrics. -/
def count (change : SegmentMetrics → SegmentMetrics) : Operation Allocator Unit :=
  modify fun allocator => { allocator with metrics := change allocator.metrics }

/-- Closes a segment to further grants. -/
def supersede (id : SegmentId) : Operation Allocator Segment :=
  update id Segment.supersede

/-- Seals a segment. -/
def sealSegment (id : SegmentId) (sealedTime : Timestamp) : Operation Allocator Segment := do
  let segment ← update id (Segment.sealAt sealedTime)
  count fun metrics => { metrics with sealed := metrics.sealed + 1 }
  return segment

end Allocator

end IngestCoordinator
