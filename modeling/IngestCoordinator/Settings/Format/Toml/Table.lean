-- SUMMARY: TOML tables: fields by name, and what may still be added to them.
import IngestCoordinator.Settings.Path

/-!
# TOML tables

A table is defined once: by a head of its own, or by names with points, or on one
line as a value. A head may come after the heads of tables inside; a table that names
with points have made takes only such names. Every addition goes through one walk
along a path.
-/

namespace IngestCoordinator.Settings.TomlFile

/-- How a table has come about. -/
inductive Kind where
  /-- By a head of its own; so has the table that the file is. -/
  | headed
  /-- By the head of a table in it. -/
  | implied
  /-- By a name with points. -/
  | dotted
  deriving DecidableEq, Repr

/-- What stands under a name. -/
inductive Item where
  /-- A value: what it gives to the paths below. Nothing can be added to it. -/
  | value (given : Source)
  | table (kind : Kind) (fields : List (String × Item))
  /-- An array of tables, of which the last can be added to. -/
  | elements (last : List (String × Item))

/-- The fields of a table. -/
abbrev Fields := List (String × Item)

namespace Fields

/-- The fields with a field of a name set. -/
def put (fields : Fields) (name : String) (item : Item) : Fields :=
  match fields with
  | [] => [(name, item)]
  | field :: fields =>
    if field.1 = name then (name, item) :: fields else field :: put fields name item

/-- Changes the table at a path below a table; what is not there yet comes about on the way. -/
def walk (fields : Fields) (byName : Bool) (change : Kind → Fields → Option Fields)
    (path : List String) (kind : Kind) : Option Fields :=
  match path with
  | [] => change kind fields
  | name :: path =>
    match fields.lookup name with
    | none => do
      let kind := if byName then Kind.dotted else .implied
      return fields.put name (.table kind (← walk [] byName change path kind))
    | some (.value _) => none
    | some (.table kind below) => do
      if byName && kind = .headed then failure
      return fields.put name (.table kind (← walk below byName change path kind))
    | some (.elements last) => do
      return fields.put name (.elements (← walk last byName change path .headed))

/--
Adds a value under a name, which may have points: then each table on the way must
have come about by such names, and without them the table must not.
-/
def add (fields : Fields) (name : List String) (given : Source) (kind : Kind) :
    Option Fields := do
  let last ← name.getLast?
  let path := name.dropLast
  let put (kind : Kind) (fields : Fields) : Option Fields :=
    if (kind == .dotted) == path.isEmpty || fields.any (·.1 == last) then none
    else some (fields ++ [(last, .value given)])
  fields.walk true put path kind

/-- Adds the table that a head announces. -/
def head (fields : Fields) (path : List String) : Option Fields := do
  let last ← path.getLast?
  let announce (_ : Kind) (fields : Fields) : Option Fields :=
    match fields.lookup last with
    | none => some (fields.put last (.table .headed []))
    | some (.table .implied below) => some (fields.put last (.table .headed below))
    | some _ => none
  fields.walk false announce path.dropLast .headed

/-- Adds one more table to the array that a head announces. -/
def element (fields : Fields) (path : List String) : Option Fields := do
  let last ← path.getLast?
  let announce (_ : Kind) (fields : Fields) : Option Fields :=
    match fields.lookup last with
    | none | some (.elements _) => some (fields.put last (.elements []))
    | some _ => none
  fields.walk false announce path.dropLast .headed

end Fields

mutual

/-- What an item gives to the paths below its own. -/
def Item.given : Item → Source
  | .value given => given
  | .table _ fields => fieldsGiven fields
  | .elements _ => [⟨[], .other⟩]

/-- What the fields of a table give. -/
def fieldsGiven : List (String × Item) → Source
  | [] => []
  | (name, item) :: fields => item.given.map (Entry.under name) ++ fieldsGiven fields

end

end IngestCoordinator.Settings.TomlFile
