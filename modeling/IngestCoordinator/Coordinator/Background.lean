-- SUMMARY: The background duties: reading the mailboxes, following the watermark, removing silent nodes.
import IngestCoordinator.Coordinator.Nodes

/-!
# Background duties

While the coordinator runs, time-ticks move the barrier, a watcher seals what the
watermark has made safe, reports and completed flushes are applied, and silent
nodes are removed at intervals. A watcher that lags acts on the latest watermark
only.
-/

namespace IngestCoordinator.Coordinator

/-! ## Duties -/

/-- Follows the watermark: seals, has the nodes store what was sealed, and moves the cut-off. -/
def onWatermark (watermark : Timestamp) : StateM Coordinator (List Segment) := do
  let sealed ← stepAllocator (Allocator.sealReady watermark)
  modify (changeCluster fun cluster => cluster.requestFlush sealed)
  modify fun coordinator =>
    { coordinator with allocator := coordinator.allocator.setCutoff watermark }
  return sealed

/-- Notes the heartbeat that a time-tick is and shows it to the barrier. -/
def onTick (coordinator : Coordinator) (tick : TimeTick) : Coordinator :=
  let coordinator := coordinator.changeCluster fun cluster => cluster.touch tick.node
  let (outcome, barrier) := coordinator.barrier.observe tick
  { coordinator with barrier, metrics := coordinator.metrics.countTick outcome }

/-- Reads all time-ticks. -/
def readTimeTicks (coordinator : Coordinator) : Coordinator :=
  coordinator.timeTicks.unread.foldl onTick
    { coordinator with timeTicks := coordinator.timeTicks.emptied }

/-- Applies the reports of one batch after another. False if one of them overflows its ledger. -/
def handleBatches : List ReportBatch → StateM Coordinator Bool
  | [] => return true
  | batch :: batches => do
    match ← stepAllocator (Allocator.handleBatch? batch.reports) with
    | some _ => handleBatches batches
    | none => return false

/-- Applies all statistics reports. An overflow ends this duty, and nobody reads the mailbox again. -/
def readStatistics (coordinator : Coordinator) : Coordinator :=
  let (goesOn, coordinator) := handleBatches coordinator.statistics.unread
    { coordinator with statistics := coordinator.statistics.emptied }
  if goesOn then coordinator
  else { coordinator with statistics := coordinator.statistics.close }

/-- Applies all completed flushes. -/
def readFlushes (coordinator : Coordinator) : Coordinator :=
  coordinator.flushes.unread.foldl
    (fun coordinator completed =>
      (stepAllocator (Allocator.handleFlushCompleted completed).attempt coordinator).2)
    { coordinator with flushes := coordinator.flushes.emptied }

/-- Follows the watermark if the watcher has not seen its latest value. -/
def runWatcher (coordinator : Coordinator) : Coordinator :=
  match coordinator.phase with
  | .running watcher nextReap =>
    let (unseen, watermark, watcher) := coordinator.barrier.poll watcher
    if unseen then
      (onWatermark watermark { coordinator with phase := .running watcher nextReap }).2
    else coordinator
  | .idle | .ended => coordinator

/-- The time between two searches for silent nodes, at least a millisecond. -/
def reapIntervalMs (coordinator : Coordinator) : Nat :=
  max 1 coordinator.settings.cluster.reapIntervalMs

/-- How late a search may be, in milliseconds, without changing when the next one is due. -/
def reapToleranceMs : Nat := 5

/-- When the next search is due after one that was due at a time and is made now. -/
def nextReapAfter (due now interval : Nat) : Nat :=
  if now ≤ due + reapToleranceMs then due + ((now - due) / interval + 1) * interval
  else now + interval

/-- Removes silent nodes if that is due. -/
def runReaper (coordinator : Coordinator) : Coordinator :=
  match coordinator.phase with
  | .running watcher nextReap =>
    let now := coordinator.cluster.now
    if nextReap ≤ now then
      let next := nextReapAfter nextReap now coordinator.reapIntervalMs
      (reap { coordinator with phase := .running watcher next }).2
    else coordinator
  | .idle | .ended => coordinator

/-- Does all duties until there is nothing left to do. -/
def settle (coordinator : Coordinator) : Coordinator :=
  match coordinator.phase with
  | .running _ _ =>
    coordinator.readTimeTicks.runWatcher.readStatistics.readFlushes.runReaper.runWatcher
  | .idle | .ended => coordinator

/-! ## Sending -/

/-- Sends a time-tick. -/
def sendTimeTick (tick : TimeTick) : StateM Coordinator Delivery := fun coordinator =>
  let (delivery, timeTicks) := coordinator.timeTicks.offer tick
  (delivery, { coordinator with timeTicks })

/-- Sends statistics reports. -/
def sendStatistics (batch : ReportBatch) : StateM Coordinator Delivery := fun coordinator =>
  let (delivery, statistics) := coordinator.statistics.offer batch
  (delivery, { coordinator with statistics })

/-- Sends a completed flush. -/
def sendFlushCompleted (completed : FlushCompleted) : StateM Coordinator Delivery :=
  fun coordinator =>
    let (delivery, flushes) := coordinator.flushes.offer completed
    (delivery, { coordinator with flushes })

end IngestCoordinator.Coordinator
