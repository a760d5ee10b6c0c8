-- SUMMARY: TOML files as sources of settings.
import IngestCoordinator.Settings.Format.Toml.Value

/-!
# TOML sources

A file is a sequence of statements: heads of tables, and settings in the table whose
head came last. Each is added to the table that the file is, and fails where it
contradicts those before it. Inside an array of tables nothing is a setting.
-/

namespace IngestCoordinator.Settings.TomlFile

open Reader

/-- A line of a file, or several that belong together. -/
inductive Statement where
  /-- The head of a table. -/
  | table (path : List String)
  /-- The head of one more table in an array of tables. -/
  | element (path : List String)
  /-- A setting: its name and what its value gives below it. -/
  | setting (name : List String) (given : Source)

/-- Reads the end of a line with a comment before it, or meets the end of the text. -/
def endLine : Reader Unit := do
  skipBlanks
  skipComment
  if !(← lineEnd) && (← peek?).isSome then failure

/-- All statements of a file. -/
def statements : Nat → Reader (List Statement)
  | 0 => failure
  | fuel + 1 => do
    skipBlanks
    match ← peek? with
    | none => return []
    | some '\n' | some '\r' | some '#' =>
      endLine
      statements fuel
    | some '[' =>
      let statement ←
        if ← accept "[[" then do
          let path ← nameOf maxDepth
          expect ']'
          expect ']'
          pure (Statement.element path)
        else do
          expect '['
          let path ← nameOf maxDepth
          expect ']'
          pure (Statement.table path)
      endLine
      return statement :: (← statements fuel)
    | _ =>
      let name ← nameAndEquals
      let given ← value fuel maxDepth
      endLine
      return .setting name given :: (← statements fuel)

/-- What has been read of a file: the table that it is, and the path of the table at hand. -/
structure Progress where
  root : Fields := []
  current : List String := []

/-- Takes in a statement, unless it contradicts what has been read. -/
def Progress.take (progress : Progress) : Statement → Option Progress
  | .table path => do return { root := ← progress.root.head path, current := path }
  | .element path => do return { root := ← progress.root.element path, current := path }
  | .setting name given => do
    let add (kind : Kind) (fields : Fields) := fields.add name given kind
    return { progress with root := ← progress.root.walk false add progress.current .headed }

/-- The statements of a text, behind the mark that tells the order of its bytes. -/
def document (fuel : Nat) : Reader (List Statement) := do
  let _ ← accept "\uFEFF"
  statements fuel

/-- What a file gives. -/
def source? (text : String) : Option Source := do
  let all ← (document (2 * text.length + 2)).all? text
  let progress ← all.foldlM Progress.take {}
  return (fieldsGiven progress.root).map Entry.ofNames

end IngestCoordinator.Settings.TomlFile
