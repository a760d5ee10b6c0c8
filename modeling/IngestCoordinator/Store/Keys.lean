-- SUMMARY: The keys under which records and counters are stored.
import IngestCoordinator.Identifier

/-!
# Keys

Everything is stored below one root: records under their kind and number, the
counters under fixed names. Slashes at the end of a root do not count.
-/

namespace IngestCoordinator

/-- The root that all keys start with. -/
structure Root where
  path : String
  deriving DecidableEq, Repr

namespace Root

/-- The root that a text names, without the slashes at its end. -/
def ofString (text : String) : Root :=
  ⟨String.ofList (text.toList.reverse.dropWhile (· == '/')).reverse⟩

/-- What the keys of all collection records start with. -/
def collections (root : Root) : String :=
  root.path ++ "/collection/"

/-- What the keys of all segment records start with. -/
def segments (root : Root) : String :=
  root.path ++ "/segment/"

/-- The key of a collection record. -/
def collection (root : Root) (id : CollectionId) : String :=
  root.collections ++ toString id

/-- The key of a segment record. -/
def segment (root : Root) (id : SegmentId) : String :=
  root.segments ++ toString id

/-- The key of the first identifier that has not been reserved. -/
def nextId (root : Root) : String :=
  root.path ++ "/id/next"

/-- The key of the time below which timestamps may be handed out. -/
def window (root : Root) : String :=
  root.path ++ "/tso/window"

end Root

end IngestCoordinator
