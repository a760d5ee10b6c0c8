-- SUMMARY: The identifiers and timestamps that the coordinator draws, with failures on demand.
import IngestCoordinator.Operation
import IngestCoordinator.ManualClock

/-!
# Id sources

The coordinator draws identifiers and timestamps from a manual clock. Draws can be
made to fail, and timestamps can be foretold: those are handed out before the
clock is asked, in any order one likes.
-/

namespace IngestCoordinator

/-- A manual clock behind a switch. -/
structure IdSource where
  clock : ManualClock := {}
  /-- Every draw fails. -/
  rejecting : Bool := false
  /-- The timestamps to hand out before the clock is asked. -/
  foretold : List Timestamp := []
  deriving DecidableEq, Repr

namespace IdSource

/-- Draws an identifier. -/
def drawId : Operation IdSource Int64 := do
  let source ← get
  if source.rejecting then throw (.storeUnavailable .idsRejected)
  let (id, clock) := source.clock.drawId
  set { source with clock }
  return id

/-- Draws a timestamp. -/
def drawTimestamp : Operation IdSource Timestamp := do
  let source ← get
  if source.rejecting then throw (.storeUnavailable .idsRejected)
  match source.foretold with
  | timestamp :: foretold =>
    set { source with foretold }
    return timestamp
  | [] =>
    let (timestamp, clock) := source.clock.drawTimestamp
    set { source with clock }
    return timestamp

end IdSource

end IngestCoordinator
