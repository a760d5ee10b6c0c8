-- SUMMARY: Segment keys: the stream of rows that a segment takes.
import IngestCoordinator.Identifier

/-!
# Segment keys

Rows of one collection, one partition and one insert channel go into segments of
one key. Keys are ordered by these three in turn, channels by their code points.
-/

namespace IngestCoordinator

/-- The collection, partition and insert channel whose rows a segment takes. -/
structure SegmentKey where
  collection : CollectionId
  partition : PartitionId
  channel : String
  deriving DecidableEq, Repr

namespace SegmentKey

instance : ToString SegmentKey where
  toString key :=
    "collection " ++ toString key.collection ++ " partition " ++ toString key.partition ++
      " channel `" ++ key.channel ++ "`"

/-- Collection first, then partition, then channel. -/
instance : Ord SegmentKey where
  compare :=
    compareLex (compareOn SegmentKey.collection)
      (compareLex (compareOn SegmentKey.partition) (compareOn SegmentKey.channel))

instance : Std.TransOrd SegmentKey :=
  inferInstanceAs <| Std.TransCmp
    (compareLex (compareOn SegmentKey.collection)
      (compareLex (compareOn SegmentKey.partition) (compareOn SegmentKey.channel)))

instance : Std.LawfulEqOrd SegmentKey where
  eq_of_compare {a b} h := by
    change ((compare a.collection b.collection).then
      ((compare a.partition b.partition).then (compare a.channel b.channel))) = .eq at h
    simp only [Ordering.then_eq_eq, Std.compare_eq_iff_eq] at h
    cases a
    cases b
    simp_all

/-! ## Records -/

def toJson (key : SegmentKey) : Json :=
  .record [
    ("collection_id", key.collection.toJson),
    ("partition_id", key.partition.toJson),
    ("channel", .ofString key.channel)]

def ofJson? (value : Json) : Option SegmentKey := do
  let fields ← Json.Fields.ofJson? ["collection_id", "partition_id", "channel"] value
  return {
    collection := ← fields.required "collection_id" Identifier.ofJson?
    partition := ← fields.required "partition_id" Identifier.ofJson?
    channel := ← fields.required "channel" Json.string? }

end SegmentKey

end IngestCoordinator
