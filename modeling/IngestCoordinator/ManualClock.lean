-- SUMMARY: Identifiers and timestamps from a clock that is set by hand.
import IngestCoordinator.Identifier
import IngestCoordinator.Timestamp

/-!
# The manual clock

A source of identifiers and timestamps for a single process. Identifiers count
up. A timestamp is the start of the current millisecond, or the successor of the
last timestamp if that is greater, so timestamps increase even when the clock
stands still.
-/

namespace IngestCoordinator

/-- A clock that moves only when told to. -/
structure ManualClock where
  nextId : Int64 := 1
  physicalMs : UInt64 := 1
  last : Timestamp := 0
  deriving DecidableEq, Repr

namespace ManualClock

/-- The timestamp at the start of the current millisecond. -/
def now (clock : ManualClock) : Timestamp :=
  .compose clock.physicalMs 0

/-- Moves the clock to a millisecond, never back. -/
def setMs (clock : ManualClock) (ms : UInt64) : ManualClock :=
  { clock with physicalMs := max clock.physicalMs ms }

/-- Moves the clock on by some milliseconds, modulo the word size. -/
def advanceMs (clock : ManualClock) (ms : UInt64) : ManualClock :=
  { clock with physicalMs := clock.physicalMs + ms }

/-- Draws an identifier. -/
def drawId (clock : ManualClock) : Int64 × ManualClock :=
  (clock.nextId, { clock with nextId := clock.nextId + 1 })

/-- Draws a timestamp. -/
def drawTimestamp (clock : ManualClock) : Timestamp × ManualClock :=
  let timestamp := max clock.now (clock.last + 1)
  (timestamp, { clock with last := timestamp })

end ManualClock

end IngestCoordinator
