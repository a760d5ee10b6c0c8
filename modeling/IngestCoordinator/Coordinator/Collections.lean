-- SUMMARY: Requests about a whole collection: its channels, flushing it, and what it holds.
import IngestCoordinator.Coordinator.Basic

/-!
# Collections of the coordinator

Asking for the insert channels of a collection divides them on first use and gives
every group without an owner to a node; sealed segments that have lost their node
are then flushed again. Flushing a collection seals what can be sealed and has the
nodes store it.
-/

namespace IngestCoordinator

/-- The rows and the memory of some segments. -/
structure Totals where
  numRows : UInt64 := 0
  memSize : UInt64 := 0
  deriving DecidableEq, Repr

/-- The totals of two sets of segments together. -/
def Totals.add (a b : Totals) : Totals where
  numRows := Saturating.add a.numRows b.numRows
  memSize := Saturating.add a.memSize b.memSize

/-- The totals of some segments. -/
def Totals.ofSegments (segments : List Segment) : Totals :=
  segments.foldl (fun totals segment => totals.add ⟨segment.numRows, segment.memSize⟩) {}

/-- Where a segment stands and when it got there. -/
structure SegmentTimes where
  segment : SegmentId
  state : SegmentState
  openTime : Timestamp
  sealedTime : Timestamp
  flushedTime : Timestamp
  deriving DecidableEq, Repr

def Totals.toJson (totals : Totals) : Json :=
  .record [
    ("num_rows", .ofNat totals.numRows.toNat),
    ("mem_size", .ofNat totals.memSize.toNat)]

def SegmentTimes.toJson (times : SegmentTimes) : Json :=
  .record [
    ("segment_id", times.segment.toJson),
    ("state", times.state.toJson),
    ("open_time", .ofNat times.openTime.toNat),
    ("sealed_time", .ofNat times.sealedTime.toNat),
    ("flushed_time", .ofNat times.flushedTime.toNat)]

namespace Coordinator

/-- Adds a collection. -/
def addCollection (collection : Collection) : Operation Coordinator Unit :=
  onAllocator (Allocator.onStore (GuardedStore.addCollection collection))

/-! ## Channels and flushing -/

/-- A sealed segment whose node was never known or is gone. -/
def isOrphan (coordinator : Coordinator) (segment : Segment) : Bool :=
  segment.state == .sealed &&
    (segment.node.bind coordinator.cluster.registry.node?).isNone

/-- Asks again for the sealed segments of a collection that have lost their node. -/
def flushOrphans (collection : CollectionId) (coordinator : Coordinator) : Coordinator :=
  match coordinator.store.segmentsOf collection with
  | .error _ => coordinator
  | .ok segments =>
    coordinator.changeCluster fun cluster =>
      cluster.requestFlush (segments.filter coordinator.isOrphan)

/-- The insert channels of a collection, each watched by a node. -/
def insertChannels (collection : CollectionId) : Operation Coordinator (List String) := do
  let _ ← requireCollection collection
  let nodes := (← get).cluster.registry.size
  let (groups, _) ← onChannels (Channels.allocate collection nodes)
  let registry := (← get).cluster.registry
  if groups.any fun group => (registry.ownerOf group.name).isNone then
    let _ ← onCluster (Cluster.watch groups)
    modify (flushOrphans collection)
  return groups.flatMap ChannelGroup.channels

/-- Seals what can be sealed of a collection and has the nodes store it. -/
def flush (collection : CollectionId) : Operation Coordinator FlushOutcome := do
  let _ ← requireCollection collection
  let outcome ← Operation.ofStep (stepAllocator (Allocator.sealAll collection))
  modify (changeCluster fun cluster => cluster.requestFlush outcome.sealed)
  return { allSealed := outcome.allSealed, failed := outcome.failed }

/-! ## Queries -/

/-- The numbers of the segments of a partition. -/
def showSegments (coordinator : Coordinator) (collection : CollectionId)
    (partition : PartitionId) : Except Error (List SegmentId) :=
  coordinator.store.segmentIdsOf collection partition

/-- Where a segment stands. -/
def segmentTimes (coordinator : Coordinator) (id : SegmentId) : Except Error SegmentTimes := do
  match ← coordinator.store.segment? id with
  | none => throw (.notFound (.segment id))
  | some segment =>
    return {
      segment := id
      state := segment.state
      openTime := segment.openTime
      sealedTime := segment.sealedTime
      flushedTime := segment.flushedTime }

/-- The segments of a stored collection. -/
def segmentsOf (collection : CollectionId) : Operation Coordinator (List Segment) := do
  let _ ← requireCollection collection
  ofExcept ((← get).store.segmentsOf collection)

/-- The totals of a collection. -/
def collectionTotals (collection : CollectionId) : Operation Coordinator Totals := do
  return Totals.ofSegments (← segmentsOf collection)

/-- The totals of a partition. -/
def partitionTotals (collection : CollectionId) (partition : PartitionId) :
    Operation Coordinator Totals := do
  return Totals.ofSegments
    ((← segmentsOf collection).filter fun segment => segment.partition == partition)

end Coordinator

end IngestCoordinator
