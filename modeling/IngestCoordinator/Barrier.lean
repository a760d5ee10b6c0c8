-- SUMMARY: The barrier: a watermark that no tracked node is behind.
import IngestCoordinator.Message
import IngestCoordinator.SortedMap

/-!
# The barrier

The barrier keeps the last time-tick of every tracked node. Its watermark is the
least of them and never moves back: a node that joins starts at the watermark,
and a node that leaves stops counting at once. A watermark that has moved is
published to a feed of its own, where subscribers learn of it; one that lags sees
the latest value only.
-/

namespace IngestCoordinator

/-- What subscribers are shown. -/
structure Barrier.Feed where
  /-- The latest watermark that has been published. -/
  latest : Timestamp := 0
  /-- How often a watermark has been published. -/
  version : Nat := 0
  deriving DecidableEq, Repr

/-- Publishes a watermark, if it is later than the latest one. -/
def Barrier.Feed.publish (feed : Feed) (watermark : Timestamp) : Feed :=
  if feed.latest < watermark then ⟨watermark, feed.version + 1⟩ else feed

/-- The last ticks of the tracked nodes, the watermark, and what of it has been published. -/
structure Barrier where
  ticks : SortedMap NodeId Timestamp := .empty
  watermark : Timestamp := 0
  feed : Barrier.Feed := {}
  deriving DecidableEq, Repr

namespace Barrier

/-- What a tick did. -/
inductive Outcome where
  /-- The node is not tracked. -/
  | dropped
  /-- The watermark stays. -/
  | held
  /-- The watermark moved to a new value. -/
  | advanced (watermark : Timestamp)
  deriving DecidableEq, Repr

/-- The new watermark, if there is one. -/
def Outcome.watermark? : Outcome → Option Timestamp
  | .advanced watermark => some watermark
  | .dropped | .held => none

/-- The least tick of the tracked nodes. -/
def least? (barrier : Barrier) : Option Timestamp :=
  barrier.ticks.values.min?

/-- Raises the watermark to the least tick, and publishes it if it has moved. -/
def settle (barrier : Barrier) : Outcome × Barrier :=
  match barrier.least? with
  | none => (.held, barrier)
  | some least =>
    if barrier.watermark < least then
      (.advanced least, { barrier with watermark := least, feed := barrier.feed.publish least })
    else (.held, barrier)

/-- Tracks a node, from the watermark on; a node that is tracked keeps its last tick. -/
def add (barrier : Barrier) (node : NodeId) : Barrier :=
  if barrier.ticks.contains node then barrier
  else { barrier with ticks := barrier.ticks.insert node barrier.watermark }

/-- Stops tracking a node. -/
def remove (barrier : Barrier) (node : NodeId) : Outcome × Barrier :=
  if barrier.ticks.contains node then
    settle { barrier with ticks := barrier.ticks.erase node }
  else (.dropped, barrier)

/-- Records a tick; a node's last tick never moves back. -/
def observe (barrier : Barrier) (tick : TimeTick) : Outcome × Barrier :=
  match barrier.ticks.get? tick.node with
  | none => (.dropped, barrier)
  | some last =>
    settle { barrier with ticks := barrier.ticks.insert tick.node (max last tick.timestamp) }

/-! ## Subscribers -/

/-- One who wants to know the watermark: which version of the feed has been seen. -/
structure Subscriber where
  seen : Nat
  deriving DecidableEq, Repr

/-- Subscribes; the current value counts as seen. -/
def subscribe (barrier : Barrier) : Subscriber :=
  ⟨barrier.feed.version⟩

/-- Whether there is an unseen value, the latest value, and the subscriber who has seen it. -/
def poll (barrier : Barrier) (subscriber : Subscriber) : Bool × Timestamp × Subscriber :=
  (subscriber.seen ≠ barrier.feed.version, barrier.feed.latest, ⟨barrier.feed.version⟩)

end Barrier

end IngestCoordinator
