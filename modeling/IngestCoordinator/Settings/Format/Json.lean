-- SUMMARY: JSON files as sources of settings.
import IngestCoordinator.Settings.Path

/-!
# JSON sources

The file is an object whose fields are settings or sections. Of several fields of
one name the last counts.
-/

namespace IngestCoordinator.Settings.JsonFile

/-- How many arrays and objects may stand one in the other. -/
def maxDepth : Nat := 127

/-- A number: an integer if it fits. -/
def number? (lexeme : Bytes) : Option Scalar :=
  match (Json.number lexeme).int64? with
  | some value => some (.int value.toInt)
  | none => (Json.float? (.number lexeme)).map .real

mutual

/-- What a value gives to a path; so many arrays and objects may stand in it, itself included. -/
def entriesAt? (room : Nat) (path : List String) : Json → Option Source
  | .bool value => some [⟨path, .bool value⟩]
  | .number lexeme => (number? lexeme).map fun value => [⟨path, value⟩]
  | .string lexeme => (Json.text? lexeme).map fun value => [⟨path, .text value⟩]
  | .null => some [⟨path, .other⟩]
  | .array items =>
    if room ≠ 0 && allReadable (room - 1) items then some [⟨path, .other⟩] else none
  | .object fields => if room ≠ 0 then fieldEntries? (room - 1) path fields else none

/-- Whether all items of an array can be read. -/
def allReadable (room : Nat) : List Json → Bool
  | [] => true
  | item :: items => (entriesAt? room [] item).isSome && allReadable room items

/-- What the fields of an object give to the paths below a path. -/
def fieldEntries? (room : Nat) (path : List String) : List (Bytes × Json) → Option Source
  | [] => some []
  | (lexeme, value) :: fields => do
    let name ← Json.text? lexeme
    let entries ← entriesAt? room (path ++ [name]) value
    let rest ← fieldEntries? room path fields
    if fields.any fun field => Json.text? field.1 == some name then return rest
    else return entries ++ rest

end

/-- What a file gives: the names of its fields are paths. -/
def source? (text : String) : Option Source :=
  match Json.parse? (Bytes.ofString text) with
  | some (.object fields) =>
    (fieldEntries? (maxDepth - 1) [] fields).map fun given => given.map Entry.ofNames
  | _ => none

end IngestCoordinator.Settings.JsonFile
