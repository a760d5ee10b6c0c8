-- SUMMARY: The index of growing segments by key.
import IngestCoordinator.Segment.Key
import IngestCoordinator.SortedMap

/-!
# The key index

For each key the index names the segment that rows are granted on, the target,
and the segments that still grow but take no further rows, the retired ones.
-/

namespace IngestCoordinator

/-- The growing segments of one key. -/
structure KeyEntry where
  target : Option SegmentId := none
  retired : SortedSet SegmentId := .empty
  deriving DecidableEq, Repr

namespace KeyEntry

/-- Whether the key has no growing segment. -/
def isEmpty (entry : KeyEntry) : Bool :=
  entry.target.isNone && entry.retired.isEmpty

/-- The growing segments of the key, by number. -/
def segmentIds (entry : KeyEntry) : List SegmentId :=
  match entry.target with
  | none => entry.retired.elems
  | some target => SortedSet.elems (SortedSet.add entry.retired target)

/-- The entry without a segment. -/
def forget (entry : KeyEntry) (id : SegmentId) : KeyEntry where
  target := if entry.target = some id then none else entry.target
  retired := entry.retired.erase id

/-- The entry with a segment among the retired ones. -/
def retire (entry : KeyEntry) (id : SegmentId) : KeyEntry where
  target := if entry.target = some id then none else entry.target
  retired := SortedSet.add entry.retired id

end KeyEntry

/-- The growing segments of every key that has any. -/
abbrev KeyIndex := SortedMap SegmentKey KeyEntry

namespace KeyIndex

/-- The segment of a key that rows are granted on. -/
def target? (index : KeyIndex) (key : SegmentKey) : Option SegmentId :=
  (index.get? key).bind KeyEntry.target

/-- The segments of a key that grow but take no further rows. -/
def retired (index : KeyIndex) (key : SegmentKey) : List SegmentId :=
  ((index.get? key).map fun entry => entry.retired.elems).getD []

/-- Makes a segment the target of a key. -/
def setTarget (index : KeyIndex) (key : SegmentKey) (id : SegmentId) : KeyIndex :=
  index.insert key { (index.get? key).getD {} with target := some id }

/-- Retires a segment of a key. -/
def retire (index : KeyIndex) (key : SegmentKey) (id : SegmentId) : KeyIndex :=
  index.insert key (((index.get? key).getD {}).retire id)

/-- Forgets a segment of a key. -/
def forget (index : KeyIndex) (key : SegmentKey) (id : SegmentId) : KeyIndex :=
  match index.get? key with
  | none => index
  | some entry => index.insert key (entry.forget id)

/-- Drops a key that has no growing segment left. -/
def prune (index : KeyIndex) (key : SegmentKey) : KeyIndex :=
  match index.get? key with
  | none => index
  | some entry => if entry.isEmpty then index.erase key else index

end KeyIndex

end IngestCoordinator
