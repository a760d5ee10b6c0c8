-- SUMMARY: Identifiers of collections, partitions, segments and nodes.
import IngestCoordinator.Text.Decimal
import IngestCoordinator.Json.Record

/-!
# Identifiers

Every kind of thing is numbered by signed 64-bit integers. The kind is part of
the type, so a partition is never looked up as a segment.
-/

namespace IngestCoordinator

/-- The kinds of things that have identifiers. -/
inductive Kind where
  | collection
  | partition
  | segment
  | node
  deriving DecidableEq, Repr

/-- The number of a thing of one kind. -/
structure Identifier (kind : Kind) where
  val : Int64
  deriving DecidableEq, Repr

abbrev CollectionId := Identifier .collection

abbrev PartitionId := Identifier .partition

abbrev SegmentId := Identifier .segment

abbrev NodeId := Identifier .node

namespace Identifier

variable {kind : Kind}

instance : Inhabited (Identifier kind) := ⟨⟨0⟩⟩

instance : ToString (Identifier kind) where
  toString id := toString id.val.toInt

/-- Identifiers are ordered as numbers. -/
instance : Ord (Identifier kind) where
  compare a b := compare a.val b.val

instance : Std.TransOrd (Identifier kind) where
  eq_swap {a b} := by
    change compare a.val b.val = (compare b.val a.val).swap
    exact Std.OrientedCmp.eq_swap
  isLE_trans {a b c} := by
    change (compare a.val b.val).isLE → (compare b.val c.val).isLE → (compare a.val c.val).isLE
    exact Std.TransCmp.isLE_trans

instance : Std.LawfulEqOrd (Identifier kind) where
  eq_of_compare {a b} h := by
    have hv : a.val = b.val := Std.LawfulEqOrd.eq_of_compare h
    cases a
    cases b
    simp_all

/-- Reads an identifier as it is printed; a plus sign is allowed. -/
def parse (text : String) : Except Decimal.Fault (Identifier kind) :=
  mk <$> Decimal.readSigned (Bytes.ofString text)

def toJson (id : Identifier kind) : Json :=
  Json.ofInt id.val.toInt

def ofJson? (value : Json) : Option (Identifier kind) :=
  value.int64?.map mk

end Identifier

end IngestCoordinator
