-- SUMMARY: Several sequencers over one store.
import IngestCoordinator.SortedMap
import IngestCoordinator.Store.Sequencer

/-!
# Sharing a store

Several sequencers draw from one store, each under a number of its own. A sequencer
that is opened again under its number forgets what it had reserved.
-/

namespace IngestCoordinator

/-- Sequencers over one store. -/
structure SharedStore where
  backend : Backend
  root : Root
  sequencers : SortedMap Nat Sequencer := .empty
  deriving DecidableEq, Repr

namespace SharedStore

/-- Makes a call to the backend. -/
def onBackend (call : Operation Backend α) : Operation SharedStore α :=
  call.onPart SharedStore.backend fun store backend => { store with backend }

/-- Puts a sequencer under a number. -/
def keep (number : Nat) (sequencer : Sequencer) (store : SharedStore) : SharedStore :=
  { store with sequencers := store.sequencers.insert number sequencer }

/-- Opens a sequencer under a number. -/
def «open» (number : Nat) (blockSize : UInt64) : Operation SharedStore Unit := do
  let sequencer ← onBackend (Sequencer.open (← get).root blockSize)
  modify (keep number sequencer)

/-- Draws an identifier from the sequencer under a number, if there is one. -/
def drawId (number : Nat) : Operation SharedStore (Option Int64) := do
  match (← get).sequencers.get? number with
  | none => return none
  | some sequencer =>
    let (id, sequencer) ← onBackend sequencer.drawId
    modify (keep number sequencer)
    return some id

/-- Draws a timestamp from the sequencer under a number, if there is one. -/
def drawTimestamp (number : Nat) (now : UInt64) : Operation SharedStore (Option Timestamp) := do
  match (← get).sequencers.get? number with
  | none => return none
  | some sequencer =>
    let (timestamp, sequencer) ← onBackend (sequencer.drawTimestamp now)
    modify (keep number sequencer)
    return some timestamp

end SharedStore

end IngestCoordinator
