-- SUMMARY: Environment variables as a source of settings.
import IngestCoordinator.Settings.Path

/-!
# Environment variables

A variable whose name starts in the right way gives a value to the path that the
rest of its name spells, with two underscores between the parts. Its value is a
truth value, an integer, a number or a text, whatever it can first be read as.
-/

namespace IngestCoordinator.Settings.Environment

/-- What the names of the variables start with, in lower case. -/
def stem : String := "akidb_datacoord__"

/-- A name with a point for every two underscores. -/
def pointed : List Char → List Char
  | '_' :: '_' :: rest => '.' :: pointed rest
  | c :: rest => c :: pointed rest
  | [] => []

/-- The plain value that the text of a variable is read as. -/
def scalarOf (text : String) : Scalar :=
  let word := text.toLower
  if word = "true" then .bool true
  else if word = "false" then .bool false
  else
    match Decimal.readSigned (Bytes.ofString text) with
    | .ok value => .int value.toInt
    | .error _ =>
      match Real.parse? (Bytes.ofString text) with
      | some value => .real value
      | none => .text text

/-- What a variable gives, if its name starts in the right way. -/
def entry? (name text : String) : Option Entry :=
  let lowered := (lowerName name).toList
  if stem.toList.isPrefixOf lowered then
    some (Entry.ofNames ⟨[String.ofList (pointed (lowered.drop stem.length))], scalarOf text⟩)
  else none

/-- What the variables give. -/
def source (environment : List (String × String)) : Source :=
  environment.filterMap fun (name, text) => entry? name text

end IngestCoordinator.Settings.Environment
