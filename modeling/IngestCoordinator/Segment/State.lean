-- SUMMARY: The lifecycle of a segment.
import IngestCoordinator.Json.Record

/-!
# Segment states

A segment is built as `new`, takes rows while `growing`, is closed as `sealed` and
ends as `flushed` once its rows are stored durably.
-/

namespace IngestCoordinator

/-- Where a segment stands in its life. -/
inductive SegmentState where
  | new
  | growing
  | sealed
  | flushed
  deriving DecidableEq, Repr

namespace SegmentState

/-- The word for a state. -/
def name : SegmentState → String
  | .new => "new"
  | .growing => "growing"
  | .sealed => "sealed"
  | .flushed => "flushed"

instance : ToString SegmentState := ⟨name⟩

/-- The state that a word names. -/
def ofName? : String → Option SegmentState
  | "new" => some .new
  | "growing" => some .growing
  | "sealed" => some .sealed
  | "flushed" => some .flushed
  | _ => none

theorem ofName?_name (state : SegmentState) : ofName? state.name = some state := by
  cases state <;> rfl

/-- The range of rows of a sealed or flushed segment never changes again. -/
def isImmutable : SegmentState → Bool
  | .sealed | .flushed => true
  | .new | .growing => false

def toJson (state : SegmentState) : Json :=
  .ofString state.name

def ofJson? (value : Json) : Option SegmentState :=
  value.word?.bind ofName?

end SegmentState

end IngestCoordinator
