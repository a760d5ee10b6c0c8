-- SUMMARY: Handling what nodes report on segments: statistics and completed flushes.
import IngestCoordinator.Allocator.Basic
import IngestCoordinator.Message

/-!
# Reports

Statistics are applied once per report number, in whatever order they arrive, and
no longer once the segment has been flushed behind the cut-off. A completed flush
takes a sealed segment to its last state, once.
-/

namespace IngestCoordinator

/-- What became of a statistics report. -/
inductive ReportOutcome where
  | applied
  | duplicate
  | unknownSegment
  /-- The segment was flushed at or before the cut-off. -/
  | stale
  deriving DecidableEq, Repr

/-- The word for an outcome. -/
def ReportOutcome.name : ReportOutcome → String
  | .applied => "applied"
  | .duplicate => "duplicate"
  | .unknownSegment => "unknown_segment"
  | .stale => "stale"

/-- What became of a completed flush. -/
inductive FlushCompletion where
  | flushed
  | alreadyFlushed
  | notSealed
  | unknownSegment
  deriving DecidableEq, Repr

/-- The word for an outcome. -/
def FlushCompletion.name : FlushCompletion → String
  | .flushed => "flushed"
  | .alreadyFlushed => "already_flushed"
  | .notSealed => "not_sealed"
  | .unknownSegment => "unknown_segment"

namespace Allocator

/-- Moves the cut-off, never back. -/
def setCutoff (allocator : Allocator) (watermark : Timestamp) : Allocator :=
  { allocator with cutoff := max allocator.cutoff watermark }

/-- Counts a dropped report on statistics. -/
def dropReport (outcome : ReportOutcome) : Operation Allocator ReportOutcome := do
  count fun metrics => { metrics with droppedStatistics := metrics.droppedStatistics + 1 }
  return outcome

/-- Handles a statistics report. -/
def handleReport (report : Report) : Operation Allocator ReportOutcome := do
  match ← segment? report.segment with
  | none => dropReport .unknownSegment
  | some segment =>
    if segment.state = .flushed ∧ segment.flushedTime ≤ (← get).cutoff then dropReport .stale
    else if segment.ledger.contains report.seq then dropReport .duplicate
    else
      let _ ← update report.segment (Segment.report report.seq report.rowDelta report.memSize)
      return .applied

/--
Handles reports one after another; those that fail have no outcome. `none` if one of them
overflows its ledger: those after it are not handled.
-/
def handleBatch? : List Report → StateM Allocator (Option (List ReportOutcome))
  | [] => return some []
  | report :: reports => do
    match ← (handleReport report).attempt with
    | .ok outcome => return (← handleBatch? reports).map (outcome :: ·)
    | .error error => if error = .overflow then return none else handleBatch? reports

/-- Handles a completed flush. -/
def handleFlushCompleted (completed : FlushCompleted) : Operation Allocator FlushCompletion := do
  match ← segment? completed.segment with
  | none =>
    count fun metrics => { metrics with droppedFlushes := metrics.droppedFlushes + 1 }
    return .unknownSegment
  | some segment =>
    match segment.state with
    | .flushed => return .alreadyFlushed
    | .new | .growing =>
      count fun metrics => { metrics with droppedFlushes := metrics.droppedFlushes + 1 }
      return .notSealed
    | .sealed =>
      let _ ← update completed.segment (Segment.flush completed.timestamp)
      count fun metrics => { metrics with flushed := metrics.flushed + 1 }
      return .flushed

end Allocator

end IngestCoordinator
