-- SUMMARY: Hybrid timestamps: milliseconds in the high bits, a counter in the low bits.
import IngestCoordinator.Saturating

/-!
# Timestamps

A timestamp is a 64-bit word whose low 18 bits count events within one
millisecond and whose high bits are the milliseconds. Milliseconds that need more
than 46 bits lose their high bits.
-/

namespace IngestCoordinator

/-- A point in time, ordered as a word. -/
abbrev Timestamp := UInt64

namespace Timestamp

/-- How many low bits hold the counter. -/
def logicalBits : UInt64 := 18

/-- The largest counter within one millisecond. -/
def logicalMask : UInt64 := (1 <<< logicalBits) - 1

/-- The timestamp of a millisecond and a counter, each cut to its bits. -/
def compose (physical logical : UInt64) : Timestamp :=
  (physical <<< logicalBits) ||| (logical &&& logicalMask)

/-- The milliseconds of a timestamp. -/
def physical (ts : Timestamp) : UInt64 :=
  ts >>> logicalBits

/-- The counter of a timestamp. -/
def logical (ts : Timestamp) : UInt64 :=
  ts &&& logicalMask

/-- The timestamp some milliseconds later, with the same counter. -/
def addMs (ts : Timestamp) (ms : UInt64) : Timestamp :=
  compose (Saturating.add ts.physical ms) ts.logical

end Timestamp

end IngestCoordinator
