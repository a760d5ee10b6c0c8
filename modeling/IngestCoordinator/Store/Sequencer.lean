-- SUMMARY: Identifiers and timestamps from counters in a shared store.
import IngestCoordinator.Store.Backend
import IngestCoordinator.Store.Keys

/-!
# Sequencers

A sequencer hands out identifiers and timestamps that no other sequencer over the
same store hands out. Identifiers come in blocks reserved by conditional writes.
Timestamps follow the wall clock but stay below a window that is stored ahead of
them, so a sequencer opened later starts above all of them even if the wall clock
has gone back.
-/

namespace IngestCoordinator

/-- A source of identifiers and timestamps over a store. -/
structure Sequencer where
  root : Root
  blockSize : Int64
  /-- The identifiers reserved and not handed out: from `next` up to `stop`, without it. -/
  next : Int64 := 0
  stop : Int64 := 0
  /-- The parts of the last timestamp. -/
  physical : UInt64
  logical : UInt64 := 0
  /-- The stored window: timestamps have milliseconds below it. -/
  windowEnd : UInt64
  deriving DecidableEq, Repr

namespace Sequencer

/-- How many milliseconds a window reaches past the timestamp that needs it. -/
def windowMs : UInt64 := 3000

/-- How often a block is tried for before giving up. -/
def reserveAttempts : Nat := 16

/-- A counter as it is stored. -/
def decodeCounter (key : String) (read : Bytes → Except Decimal.Fault α) (raw : Bytes) :
    Except Error α :=
  (read raw).mapError fun _ => .malformed (.counter key)

/-- Reads a counter: its bytes if it is stored, and its value, `absent` if it is not. -/
def readCounter (key : String) (read : Bytes → Except Decimal.Fault α) (absent : α) :
    Operation Backend (Option Bytes × α) := do
  match ← Backend.get? key with
  | none => return (none, absent)
  | some raw => return (some raw, ← ofExcept (decodeCounter key read raw))

/-- Opens a sequencer, at the stored window. -/
def «open» (root : Root) (blockSize : UInt64) : Operation Backend Sequencer := do
  if blockSize = 0 then throw (.invalidArgument .idBlockEmpty)
  let (_, window) ← readCounter root.window Decimal.readUnsigned 0
  if blockSize.toNat ≥ 0x8000000000000000 then throw (.invalidArgument .idBlockTooLarge)
  return {
    root
    blockSize := Int64.ofNat blockSize.toNat
    physical := window
    windowEnd := window }

/-! ## Identifiers -/

/-- A block that can be reserved as long as the counter is what it was when it was read. -/
structure Bid where
  /-- The counter as it was read. -/
  seen : Option Bytes
  start : Int64
  stop : Int64
  deriving DecidableEq, Repr

/-- Reads the counter and makes a bid for the block from there on. -/
def bid (sequencer : Sequencer) : Operation Backend Bid := do
  let (seen, start) ← readCounter sequencer.root.nextId Decimal.readSigned 1
  let stop := start.toInt + sequencer.blockSize.toInt
  if 0x8000000000000000 ≤ stop then throw (.internal .idSpaceExhausted)
  return { seen, start, stop := Int64.ofInt stop }

/-- Moves the counter past a block, unless it has moved since. Says whether it did. -/
def claim (sequencer : Sequencer) (bid : Bid) : Operation Backend Bool :=
  Backend.contend sequencer.root.nextId bid.seen (Decimal.writeInt bid.stop.toInt)

/-- Reserves a block: its first identifier and the one after its last. -/
def reserve (sequencer : Sequencer) : Nat → Operation Backend (Int64 × Int64)
  | 0 => throw (.storeUnavailable .contention)
  | attempts + 1 => do
    let bid ← sequencer.bid
    if ← sequencer.claim bid then return (bid.start, bid.stop)
    else reserve sequencer attempts

/-- Hands out the first identifier of a block and keeps the others. -/
def handOut (sequencer : Sequencer) (next stop : Int64) : Int64 × Sequencer :=
  (next, { sequencer with next := next + 1, stop })

/-- Draws an identifier, reserving a block when the last one is used up. -/
def drawId (sequencer : Sequencer) : Operation Backend (Int64 × Sequencer) := do
  let (next, stop) ←
    if sequencer.stop ≤ sequencer.next then sequencer.reserve reserveAttempts
    else pure (sequencer.next, sequencer.stop)
  return sequencer.handOut next stop

/-! ## Timestamps -/

/-- The parts of the next timestamp at a wall clock reading. -/
def tick (sequencer : Sequencer) (now : UInt64) : UInt64 × UInt64 :=
  if sequencer.physical < now then (now, 0)
  else if Timestamp.logicalMask < sequencer.logical + 1 then (sequencer.physical + 1, 0)
  else (sequencer.physical, sequencer.logical + 1)

/-- Draws a timestamp at a wall clock reading, storing a new window when it reaches the old. -/
def drawTimestamp (sequencer : Sequencer) (now : UInt64) :
    Operation Backend (Timestamp × Sequencer) := do
  let (physical, logical) := sequencer.tick now
  let windowEnd ←
    if sequencer.windowEnd ≤ physical then do
      let windowEnd := physical + windowMs
      Backend.put sequencer.root.window (Decimal.write windowEnd.toNat)
      pure windowEnd
    else pure sequencer.windowEnd
  return (.compose physical logical, { sequencer with physical, logical, windowEnd })

end Sequencer

end IngestCoordinator
