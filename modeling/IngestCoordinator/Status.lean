-- SUMMARY: The states that the coordinator and its nodes show to the outside.
import IngestCoordinator.Json.Record

/-!
# Status

The coordinator is initializing until it has started, and abnormal once starting
has failed or it has been stopped. Nodes show the same words.
-/

namespace IngestCoordinator

/-- Whether a component does its work. -/
inductive Status where
  | initializing
  | healthy
  | abnormal
  deriving DecidableEq, Repr

namespace Status

/-- The word for a status. -/
def name : Status → String
  | .initializing => "initializing"
  | .healthy => "healthy"
  | .abnormal => "abnormal"

/-- The status that a word names. -/
def ofName? : String → Option Status
  | "initializing" => some .initializing
  | "healthy" => some .healthy
  | "abnormal" => some .abnormal
  | _ => none

def toJson (status : Status) : Json :=
  .ofString status.name

def ofJson? (value : Json) : Option Status :=
  value.word?.bind ofName?

end Status

end IngestCoordinator
