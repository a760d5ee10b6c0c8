-- SUMMARY: Granting rows, and opening the segment that rows are granted on.
import IngestCoordinator.Allocator.Basic

/-!
# Grants

Rows of a key are granted on its target, from the front and no more than are left.
A grant expires some time after it was made. When the target is full, another
segment takes its place; the old one is superseded and stays until its grants have
expired.
-/

namespace IngestCoordinator

/-- The rows `offset`, …, `offset + count - 1` of a segment, until they expire. -/
structure Grant where
  segment : SegmentId
  offset : UInt64
  count : UInt64
  expireTime : Timestamp
  deriving DecidableEq, Repr

def Grant.toJson (grant : Grant) : Json :=
  .record [
    ("segment_id", grant.segment.toJson),
    ("offset", .ofNat grant.offset.toNat),
    ("count", .ofNat grant.count.toNat),
    ("expire_ts", .ofNat grant.expireTime.toNat)]

namespace Allocator

/-- The target of a key, if rows can be granted on it. -/
def openTarget? (key : SegmentKey) : Operation Allocator (Option Segment) := do
  match (← get).index.target? key with
  | none => return none
  | some id => return (← segment? id).filter Segment.isAllocatable

/-- Grants rows of a key: as many as are wanted, or as are left on the target. -/
def alloc (key : SegmentKey) (wanted : UInt64) : Operation Allocator Grant := do
  if wanted = 0 then throw (.invalidArgument .rowCountNotPositive)
  match ← openTarget? key with
  | none =>
    count fun metrics => { metrics with noSegment := metrics.noSegment + 1 }
    throw (.noGrowingSegment key)
  | some target =>
    let granted := min wanted target.remaining
    let expireTime := (← onIds IdSource.drawTimestamp).addMs (← get).policy.grantLifetimeMs
    let _ ← update target.id (Segment.grant target.nextOffset granted expireTime)
    count fun metrics => metrics.grant granted wanted
    return { segment := target.id, offset := target.nextOffset, count := granted, expireTime }

/-- Makes room for a new target: the old one must have no room, and is retired. -/
def retireTarget (key : SegmentKey) : Operation Allocator Unit := do
  match (← get).index.target? key with
  | none => return
  | some previous =>
    match ← segment? previous with
    | none => pure ()
    | some segment =>
      if segment.isAllocatable then throw (.segmentAlreadyOpen previous key)
      if segment.state = .growing && !segment.superseded then
        let _ ← supersede previous
    reindex (·.retire key previous)

/-- Makes a stored new segment the target of its key. -/
def openSegment (segment : Segment) : Operation Allocator Segment := do
  match ← segment? segment.id with
  | none => throw (.notFound (.segment segment.id))
  | some stored =>
    if stored.state ≠ .new then
      throw (.invalidState (.cannotOpen segment.id stored.state))
    retireTarget segment.key
    let opened ← update segment.id Segment.grow
    reindex (·.setTarget segment.key segment.id)
    count fun metrics => { metrics with growing := metrics.growing + 1 }
    return opened

end Allocator

end IngestCoordinator
