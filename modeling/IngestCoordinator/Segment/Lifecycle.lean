-- SUMMARY: The steps in the life of a segment: opening, granting, superseding, sealing, flushing.
import IngestCoordinator.Segment.Basic

/-!
# The life of a segment

Each step checks the record it is applied to and refuses if the record does not
allow it. These are the only changes that the coordinator makes to a segment,
apart from applying reports.
-/

namespace IngestCoordinator.Segment

/-- A new segment starts to grow. -/
def grow (segment : Segment) : Except Error Segment :=
  if segment.state = .new then .ok { segment with state := .growing, superseded := false }
  else .error (.invalidState (.cannotOpen segment.id segment.state))

/-- Grants rows from an offset on, provided that nothing has been granted in between. -/
def grant (offset count : UInt64) (expireTime : Timestamp) (segment : Segment) :
    Except Error Segment :=
  if segment.nextOffset ≠ offset || !segment.isAllocatable then
    .error (.invalidState (.changedWhileAllocating segment.id))
  else
    .ok { segment with
      nextOffset := segment.nextOffset + count
      lastExpireTime := max segment.lastExpireTime expireTime }

/-- Closes a growing segment to further grants; any other stays as it is. -/
def supersede (segment : Segment) : Except Error Segment :=
  if segment.state = .growing then .ok { segment with superseded := true } else .ok segment

/-- Seals a growing segment whose grants have expired; a sealed or flushed one stays as it is. -/
def sealAt (sealedTime : Timestamp) (segment : Segment) : Except Error Segment :=
  if segment.state.isImmutable then .ok segment
  else if segment.state ≠ .growing then
    .error (.invalidState (.cannotSeal segment.id segment.state))
  else if !segment.isSafeToSeal sealedTime then
    .error (.invalidState (.grantsOutstanding segment.id sealedTime))
  else .ok { segment with state := .sealed, superseded := true, sealedTime }

/-- Marks a sealed segment as flushed; a flushed one stays as it is. -/
def flush (flushedTime : Timestamp) (segment : Segment) : Except Error Segment :=
  match segment.state with
  | .sealed => .ok { segment with state := .flushed, flushedTime }
  | .flushed => .ok segment
  | .new | .growing => .error (.invalidState (.cannotFlush segment.id segment.state))

/-- Applies a report, if it has not been applied before. -/
def report (seq rowDelta memSize : UInt64) (segment : Segment) : Except Error Segment :=
  match segment.applyReport? seq rowDelta memSize with
  | some (_, reported) => .ok reported
  | none => .error .overflow

end IngestCoordinator.Segment
