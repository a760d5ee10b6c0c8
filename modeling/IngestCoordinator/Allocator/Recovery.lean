-- SUMMARY: Rebuilding the key index from the stored segments.
import IngestCoordinator.Allocator.Basic

/-!
# Recovery

After a restart the index is rebuilt from the stored segments. The newest growing
segment of a key that is not superseded becomes its target; all older ones are
superseded. The index and the watermark change only when every key has been
repaired, so a recovery that fails can simply be tried again.
-/

namespace IngestCoordinator.Allocator

/-- Older segments first: by the time they were opened, then by number. -/
def openedBefore (a b : Segment) : Bool :=
  a.openTime < b.openTime || (a.openTime == b.openTime && (compare a.id b.id).isLE)

/-- The growing segments by key, each key's by age. -/
def growingByKey (segments : List Segment) : SortedMap SegmentKey (List Segment) :=
  let growing := segments.filter fun segment => segment.state == .growing
  let byKey := growing.foldl (fun (groups : SortedMap SegmentKey (List Segment)) segment =>
    groups.insert segment.key ((groups.get? segment.key).getD [] ++ [segment])) .empty
  byKey.map fun _ group => group.mergeSort openedBefore

/-- The segment that becomes the target of a key, of the key's growing segments by age. -/
def recoveredTarget (group : List Segment) : Option SegmentId :=
  (group.reverse.find? fun segment => !segment.superseded).map Segment.id

/-- Retires segments of a key, superseding those that are not. -/
def retireEach (entry : KeyEntry) : List Segment → Operation Allocator KeyEntry
  | [] => return entry
  | segment :: rest => do
    if entry.target = some segment.id then retireEach entry rest
    else
      if !segment.superseded then
        let _ ← supersede segment.id
      retireEach { entry with retired := SortedSet.add entry.retired segment.id } rest

/-- Repairs keys one after another; the answer is their index. -/
def repair : List (SegmentKey × List Segment) → Operation Allocator KeyIndex
  | [] => return .empty
  | (key, group) :: rest => do
    let entry ← retireEach { target := recoveredTarget group } group
    return (← repair rest).insert key entry

/-- The latest time at which a stored segment was sealed. -/
def latestSealing (segments : List Segment) : Timestamp :=
  (segments.filter fun segment => segment.state.isImmutable).foldl
    (fun latest segment => max latest segment.sealedTime) 0

/-- Rebuilds the index; the answer is the number of keys with a growing segment. -/
def recover : Operation Allocator Nat := do
  let segments ← ofExcept (← get).store.segments
  let index ← repair (growingByKey segments).toList
  modify fun allocator =>
    { allocator with index, watermark := max allocator.watermark (latestSealing segments) }
  return index.size

end IngestCoordinator.Allocator
