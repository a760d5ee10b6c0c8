-- SUMMARY: Answering requests for rows, opening segments as they are needed.
import IngestCoordinator.Coordinator.Basic

/-!
# Assignment

A request for rows is answered by a grant on the target of its key. While the key
has no target with room, a segment is opened for it, up to a number of times.
Requests are answered in order and each for itself.
-/

namespace IngestCoordinator.Coordinator

/-- How many rows of the given width a segment takes: at least one. -/
def capacityFor (sizeBytes rowWidth : UInt64) : UInt64 :=
  max (sizeBytes / max rowWidth 1) 1

/-- Builds, stores and opens a segment of a key that has no target with room. -/
def openSegment (key : SegmentKey) : Operation Coordinator Segment := do
  if let some target ← onAllocator (Allocator.openTarget? key) then
    throw (.segmentAlreadyOpen target.id key)
  let collection ← requireCollection key.collection
  if !collection.hasPartition key.partition then throw (.notFound (.partition key.partition))
  let coordinator ← get
  let group ← ofExcept (coordinator.channels.groupOf key.collection key.channel)
  let node := coordinator.cluster.registry.ownerOf group.name
  let capacity :=
    capacityFor coordinator.settings.segment.sizeBytes (← ofExcept collection.schema.rowWidth)
  let id ← onAllocator (Allocator.onIds IdSource.drawId)
  let openTime ← onAllocator (Allocator.onIds IdSource.drawTimestamp)
  let segment := Segment.fresh ⟨id⟩ key group.name node capacity openTime
  onAllocator (Allocator.onStore (GuardedStore.addSegment segment))
  onAllocator (Allocator.openSegment segment)

/-- Answers a request, opening at most the given number of segments for it. -/
def assignOne (request : RowRequest) : Nat → Operation Coordinator Grant
  | 0 => onAllocator (Allocator.alloc request.key request.count)
  | opens + 1 => do
    match ← Operation.ofStep (onAllocator (Allocator.alloc request.key request.count)).attempt with
    | .ok grant => return grant
    | .error (.noGrowingSegment _) =>
      match ← Operation.ofStep (openSegment request.key).attempt with
      | .ok _ | .error (.segmentAlreadyOpen _ _) => assignOne request opens
      | .error error => throw error
    | .error error => throw error

/-- Answers a request and counts it if the answer is an error. -/
def assignCounted (request : RowRequest) : StateM Coordinator (Except Error Grant) := do
  let opens := (← get).settings.segment.maxOpenAttempts.toNat
  let answer ← (assignOne request opens).attempt
  match answer with
  | .ok _ => return answer
  | .error _ =>
    modify fun coordinator =>
      { coordinator with metrics.failed := coordinator.metrics.failed + 1 }
    return answer

/-- Answers requests one after another. -/
def assign : List RowRequest → StateM Coordinator (List (Except Error Grant))
  | [] => return []
  | request :: requests => do
    let answer ← assignCounted request
    return answer :: (← assign requests)

end IngestCoordinator.Coordinator
