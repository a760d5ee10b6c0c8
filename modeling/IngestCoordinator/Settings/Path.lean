-- SUMMARY: Names of settings: letter case, and paths written with points and subscripts.
import IngestCoordinator.Settings.Source
import IngestCoordinator.Text.Reader

/-!
# Paths

Names are read in lower case. A name at the top of a source may be a whole path,
its parts separated by points; a number in brackets leads to an element of a list.
A name that is no path stands for itself.
-/

namespace IngestCoordinator.Settings

open Reader

/-! ## Names -/

/--
A character in lower case. Of the characters beyond ASCII only the kelvin sign
becomes an ASCII letter alone; names that hold another are names of no setting.
-/
def lowerChar (c : Char) : Char :=
  if c.toNat = 0x212A then 'k' else c.toLower

/-- A name in lower case. -/
def lowerName (name : String) : String :=
  name.map lowerChar

/-! ## Targets -/

/-- What a name at the top of a source stands for. -/
structure Target where
  path : List String
  /-- The name leads on to an element of a list at the path. -/
  inList : Bool := false
  deriving DecidableEq, Repr

namespace Target

/-- The characters that the parts of a path consist of. -/
def isPathChar (c : Char) : Bool :=
  c.isAlphanum || c == ' ' || c == '_' || c == '-'

/-- One part of a path. -/
def part : Reader String := do
  let name ← takeWhile isPathChar
  if name.isEmpty then failure
  return String.ofList name

/-- A subscript: an integer in brackets, with blanks around it. -/
def subscript : Reader Unit := do
  let isBlank (c : Char) : Bool := c == ' ' || c == '\t'
  expect '['
  let _ ← takeWhile isBlank
  let sign := if ← accept "-" then "-" else ""
  let digits ← takeWhile Char.isDigit
  if (Decimal.readSigned (Bytes.ofString (sign ++ String.ofList digits))).toOption.isNone then
    failure
  let _ ← takeWhile isBlank
  expect ']'

/-- One step further: a part behind a point, or a subscript, which has no name. -/
def step : Reader (Option String) := do
  if ← accept "." then return some (← part)
  else
    subscript
    return none

/-- All steps up to the end of the name. -/
def steps : Nat → Reader (List (Option String))
  | 0 => failure
  | fuel + 1 => do
    if (← peek?).isNone then return []
    return (← step) :: (← steps fuel)

/-- The path that a name spells, if it spells one. -/
def spelled (fuel : Nat) : Reader Target := do
  let first ← part
  let steps ← steps fuel
  return { path := first :: (steps.takeWhile Option.isSome).filterMap id,
           inList := steps.any Option.isNone }

/-- What a name stands for. -/
def ofName (name : String) : Target :=
  let name := lowerName name
  ((spelled (name.length + 1)).all? name).getD { path := [name] }

end Target

/-! ## Entries by name -/

/-- The entry that a value under names stands for: the first name may itself be a path. -/
def Entry.ofNames (entry : Entry) : Entry :=
  match entry.path with
  | [] => entry
  | first :: rest =>
    let target := Target.ofName first
    if target.inList then ⟨target.path, .other⟩
    else ⟨target.path ++ rest.map lowerName, entry.value⟩

/-- An entry for the part of the settings that has a name. -/
def Entry.under (name : String) (entry : Entry) : Entry :=
  { entry with path := name :: entry.path }

/-- The entries of a section with those of one more field, which replaces a field of its name. -/
def Source.withField (source : Source) (name : String) (field : Source) : Source :=
  (source.filter fun entry => entry.path.head? ≠ some name) ++ field.map (Entry.under name)

end IngestCoordinator.Settings
