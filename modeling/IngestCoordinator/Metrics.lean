-- SUMMARY: Counters and gauges that describe a running coordinator.
import IngestCoordinator.Barrier

/-!
# Metrics

Counters only go up. They count grants and their outcomes, the rows granted
(modulo the word size), the segments that entered each state, and the reports
dropped as stale, repeated or unknown. Gauges hold the latest value.
-/

namespace IngestCoordinator

/-- What has happened to segments. -/
structure SegmentMetrics where
  /-- Grants made, in full and cut to what was left. -/
  granted : Nat := 0
  cut : Nat := 0
  /-- Grants that found no segment to take rows from. -/
  noSegment : Nat := 0
  rowsGranted : UInt64 := 0
  /-- Segments that became growing, sealed and flushed. -/
  growing : Nat := 0
  sealed : Nat := 0
  flushed : Nat := 0
  /-- Reports dropped, on statistics and on flushes. -/
  droppedStatistics : Nat := 0
  droppedFlushes : Nat := 0
  deriving DecidableEq, Repr

/-- Counts a grant of `count` rows where `wanted` were asked for. -/
def SegmentMetrics.grant (metrics : SegmentMetrics) (count wanted : UInt64) : SegmentMetrics :=
  let metrics := { metrics with rowsGranted := metrics.rowsGranted + count }
  if count < wanted then { metrics with cut := metrics.cut + 1 }
  else { metrics with granted := metrics.granted + 1 }

/-- The counters with their names. -/
def SegmentMetrics.counters (metrics : SegmentMetrics) : List (String × Nat) :=
  [("assignments.granted", metrics.granted),
    ("assignments.partial", metrics.cut),
    ("assignments.no_segment", metrics.noSegment),
    ("rows_granted", metrics.rowsGranted.toNat),
    ("transitions.growing", metrics.growing),
    ("transitions.sealed", metrics.sealed),
    ("transitions.flushed", metrics.flushed),
    ("dropped.statistics", metrics.droppedStatistics),
    ("dropped.flush", metrics.droppedFlushes)]

/-- What has happened to requests and time-ticks. -/
structure ServiceMetrics where
  /-- Requests for rows that were answered by an error. -/
  failed : Nat := 0
  /-- Time-ticks dropped. -/
  droppedTimeTicks : Nat := 0
  /-- The latest watermark. -/
  watermark : UInt64 := 0
  deriving DecidableEq, Repr

namespace ServiceMetrics

/-- The counters and the gauge with their names. -/
def counters (metrics : ServiceMetrics) : List (String × Nat) :=
  [("assignments.failed", metrics.failed),
    ("dropped.time_tick", metrics.droppedTimeTicks),
    ("watermark", metrics.watermark.toNat)]

/-- Shows a new watermark; the gauge is a signed word and stops at its largest value. -/
def showWatermark (metrics : ServiceMetrics) (watermark : Timestamp) : ServiceMetrics :=
  { metrics with watermark := min watermark 0x7FFFFFFFFFFFFFFF }

/-- Shows the watermark if the barrier has moved it. -/
def showOutcome (metrics : ServiceMetrics) (outcome : Barrier.Outcome) : ServiceMetrics :=
  match outcome.watermark? with
  | none => metrics
  | some watermark => metrics.showWatermark watermark

/-- Counts a time-tick that was dropped, or shows the watermark if the tick has moved it. -/
def countTick (metrics : ServiceMetrics) (outcome : Barrier.Outcome) : ServiceMetrics :=
  if outcome = .dropped then { metrics with droppedTimeTicks := metrics.droppedTimeTicks + 1 }
  else metrics.showOutcome outcome

end ServiceMetrics

end IngestCoordinator
