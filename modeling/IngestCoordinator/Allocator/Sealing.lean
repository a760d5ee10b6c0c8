-- SUMMARY: Sealing segments: on request for a collection, and as the watermark moves.
import IngestCoordinator.Allocator.Basic

/-!
# Sealing

A segment is sealed once the watermark has passed the last of its grants. A
request seals what it can of a collection and supersedes the rest. The background
duty supersedes targets that have become large enough and seals whatever has been
superseded. Keys are taken in order; what fails for one key does not stop the
others.
-/

namespace IngestCoordinator

/-- What became of the growing segments of a collection. -/
structure SealOutcome where
  sealed : List Segment := []
  /-- Segments with grants that have not expired, or whose change the store refused. -/
  failed : List SegmentId := []
  deriving DecidableEq, Repr

/-- Whether nothing is left to seal. -/
def SealOutcome.allSealed (outcome : SealOutcome) : Bool :=
  outcome.failed.isEmpty

/-- What became of one segment. -/
inductive SealStep where
  | sealed (segment : Segment)
  /-- Grants have not expired; the segment is superseded and waits. -/
  | deferred
  /-- The segment does not grow. -/
  | skipped
  deriving DecidableEq, Repr

namespace Allocator

/-! ## On request -/

/-- Seals a segment of a key if it is safe, and supersedes and retires it otherwise. -/
def sealOrDefer (key : SegmentKey) (id : SegmentId) (watermark : Timestamp) :
    Operation Allocator SealStep := do
  match (← segment? id).filter fun segment => segment.state == .growing with
  | none =>
    reindex (·.forget key id)
    return .skipped
  | some segment =>
    if segment.isSafeToSeal watermark then
      let sealed ← sealSegment id watermark
      reindex (·.forget key id)
      return .sealed sealed
    if !segment.superseded then
      let _ ← supersede id
    reindex (·.retire key id)
    return .deferred

/-- Seals or defers segments of a key one after another. -/
def sealEach (key : SegmentKey) (watermark : Timestamp) :
    List SegmentId → StateM Allocator SealOutcome
  | [] => return {}
  | id :: ids => do
    let step ← (sealOrDefer key id watermark).attempt
    let rest ← sealEach key watermark ids
    match step with
    | .ok (.sealed segment) => return { rest with sealed := segment :: rest.sealed }
    | .ok .skipped => return rest
    | .ok .deferred | .error _ => return { rest with failed := id :: rest.failed }

/-- Seals or defers the segments of keys one after another. -/
def sealKeys (watermark : Timestamp) : List SegmentKey → StateM Allocator SealOutcome
  | [] => return {}
  | key :: keys => do
    let ids := (((← get).index.get? key).map KeyEntry.segmentIds).getD []
    let outcome ← sealEach key watermark ids
    modify fun allocator => { allocator with index := allocator.index.prune key }
    let rest ← sealKeys watermark keys
    return { sealed := outcome.sealed ++ rest.sealed, failed := outcome.failed ++ rest.failed }

/-- Seals all segments of a collection that are safe, and supersedes the others. -/
def sealAll (collection : CollectionId) : StateM Allocator SealOutcome := do
  let allocator ← get
  let keys := allocator.index.keys.filter fun key => key.collection == collection
  let outcome ← sealKeys allocator.watermark keys
  return { outcome with
    failed := outcome.failed.mergeSort fun a b => (compare a b).isLE }

/-! ## As the watermark moves -/

/-- Supersedes and retires the target of a key if it has become large enough. -/
def retireIfFull (key : SegmentKey) (target : SegmentId) : Operation Allocator Unit := do
  match (← segment? target).filter fun segment => segment.state == .growing with
  | none => reindex (·.forget key target)
  | some segment =>
    let policy := (← get).policy
    if segment.superseded ||
        segment.reachedSealThreshold policy.sealProportion policy.sizeBytes then
      if !segment.superseded then
        let _ ← supersede target
      reindex (·.retire key target)

/-- Seals the retired segments of a key that are safe; one that the store refuses stays. -/
def sealRetired (key : SegmentKey) (watermark : Timestamp) :
    List SegmentId → Operation Allocator (List Segment)
  | [] => return []
  | id :: ids => do
    match (← segment? id).filter fun segment => segment.state == .growing with
    | none =>
      reindex (·.forget key id)
      sealRetired key watermark ids
    | some segment =>
      if segment.isSafeToSeal watermark then
        match ← Operation.ofStep (sealSegment id watermark).attempt with
        | .ok sealed =>
          reindex (·.forget key id)
          return sealed :: (← sealRetired key watermark ids)
        | .error _ => sealRetired key watermark ids
      else sealRetired key watermark ids

/-- Does the background duty for one key. -/
def sealReadyOf (key : SegmentKey) (watermark : Timestamp) :
    Operation Allocator (List Segment) := do
  match (← get).index.target? key with
  | none => pure ()
  | some target => retireIfFull key target
  sealRetired key watermark ((← get).index.retired key)

/-- Does the background duty for keys one after another; a key that fails yields nothing. -/
def sealReadyKeys (watermark : Timestamp) : List SegmentKey → StateM Allocator (List Segment)
  | [] => return []
  | key :: keys => do
    let sealed ← (sealReadyOf key watermark).attempt
    modify fun allocator => { allocator with index := allocator.index.prune key }
    let rest ← sealReadyKeys watermark keys
    match sealed with
    | .ok segments => return segments ++ rest
    | .error _ => return rest

/-- Moves the watermark, never back, and seals what has become ready. -/
def sealReady (watermark : Timestamp) : StateM Allocator (List Segment) := do
  modify fun allocator => { allocator with watermark := max allocator.watermark watermark }
  let allocator ← get
  sealReadyKeys allocator.watermark allocator.index.keys

end Allocator

end IngestCoordinator
