-- SUMMARY: Records as JSON: reading fields by name or by position, and writing them in order.
import IngestCoordinator.Json.Number
import IngestCoordinator.Json.Text

/-!
# Records

A record is written as an object with its fields in declaration order. It is read
from an object in any order, where unknown fields are skipped whatever they hold
and a known field may stand only once, or from an array that lists the fields in
declaration order and may stop early. What a missing field means is up to the
field: an error, a default, or nothing.
-/

namespace IngestCoordinator.Json

/-- The fields of a record that a value gives. -/
structure Fields where
  /-- The value names its fields; otherwise it lists them in declaration order. -/
  named : Bool
  given : List (String × Json)

namespace Fields

/-- The fields with the given names, which are in declaration order. -/
def ofJson? (names : List String) : Json → Option Fields
  | .object fields => do
    let fields ← fields.mapM fun (name, value) => (text? name).map (·, value)
    let given := fields.filter fun field => names.contains field.1
    if (given.map (·.1)).Nodup then some ⟨true, given⟩ else none
  | .array items => if items.length ≤ names.length then some ⟨false, names.zip items⟩ else none
  | _ => none

/-- A field that must be given. -/
def required (fields : Fields) (name : String) (read? : Json → Option α) : Option α :=
  (fields.given.lookup name).bind read?

/-- A field that takes a default when it is not given. -/
def defaulted (fields : Fields) (name : String) (default : α) (read? : Json → Option α) :
    Option α :=
  match fields.given.lookup name with
  | none => some default
  | some value => read? value

/-- A field that may be null; where the fields are named it may also be left out. -/
def optional (fields : Fields) (name : String) (read? : Json → Option α) : Option (Option α) :=
  match fields.given.lookup name with
  | none => if fields.named then some none else none
  | some .null => some none
  | some value => (read? value).map some

end Fields

/-! ## Reading -/

/-- The truth value that a value is. -/
def bool? : Json → Option Bool
  | .bool value => some value
  | _ => none

/-- The string that a value is. -/
def string? : Json → Option String
  | .string lexeme => text? lexeme
  | _ => none

/-- The word that a value of an enumeration is: a string, or an object that gives it null. -/
def word? : Json → Option String
  | .string lexeme => text? lexeme
  | .object [(name, .null)] => text? name
  | _ => none

/-- The items of an array, each read in the same way. -/
def list? (read? : Json → Option α) : Json → Option (List α)
  | .array items => items.mapM read?
  | _ => none

/-! ## Writing -/

/-- A string as a value. -/
def ofString (s : String) : Json :=
  .string (lexeme s)

/-- A list as an array. -/
def ofList (write : α → Json) (items : List α) : Json :=
  .array (items.map write)

/-- An optional item, null when absent. -/
def ofOption (write : α → Json) : Option α → Json
  | none => .null
  | some item => write item

/-- An object with the given fields. -/
def record (fields : List (String × Json)) : Json :=
  .object (fields.map fun (name, value) => (lexeme name, value))

/-! ## Whole texts -/

/-- Reads a whole text as a record. -/
def decode (read? : Json → Option α) (text : Bytes) : Option α :=
  (parse? text).bind read?

end IngestCoordinator.Json
