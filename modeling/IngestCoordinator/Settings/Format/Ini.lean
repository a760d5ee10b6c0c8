-- SUMMARY: INI files as sources of settings.
import IngestCoordinator.Settings.Path
import IngestCoordinator.Text.Blank

/-!
# INI sources

A file is a row of section heads in brackets and of settings with an equals sign or a
colon; comments stand on lines of their own, behind a semicolon or a hash. Only a
value ends with its line. Every value is a text; a quoted part may run over lines, and
backslashes escape. The last section of a name replaces those before it.
-/

namespace IngestCoordinator.Settings.IniFile

open Reader

/-! ## Texts -/

/-- A character by its number: four hexadecimal digits, the first of which may be a plus sign. -/
def code : Reader Char := do
  if ← accept "+" then hexChar 3 else hexChar 4

/-- What an escape stands for, behind the backslash. -/
def escape : Reader (List Char) := do
  match ← next with
  | '0' => return [Char.ofNat 0]
  | 'a' => return [Char.ofNat 7]
  | 'b' => return [Char.ofNat 8]
  | 't' => return ['\t']
  | 'r' => return ['\r']
  | 'n' => return ['\n']
  | '\n' => return []
  | 'x' => return [← code]
  | c => return [c]

/-- The text up to one of the given characters, which stays unread, with its escapes resolved. -/
def upTo (isEnd : Char → Bool) : Nat → Reader (List Char)
  | 0 => failure
  | fuel + 1 => do
    match ← peek? with
    | none => return []
    | some c =>
      if isEnd c then return []
      let _ ← next
      let part ← if c = '\\' then escape else pure [c]
      return part ++ (← upTo isEnd fuel)

def isLineEnd (c : Char) : Bool :=
  c == '\n' || c == '\r'

/-- A value: the rest of its line, of which a part in front may be quoted. -/
def value (fuel : Nat) : Reader String := do
  let _ ← takeWhile fun c => Text.isBlank c && !isLineEnd c
  let quoted ←
    match ← peek? with
    | some '"' => between '"'
    | some '\'' => between '\''
    | _ => pure []
  return String.ofList (Text.trim (quoted ++ (← upTo isLineEnd fuel)))
where
  between (quote : Char) : Reader (List Char) := do
    expect quote
    let text ← upTo (· == quote) fuel
    expect quote
    return text

/-! ## Items -/

/-- What a file consists of. -/
inductive Item where
  | head (name : String)
  | setting (name value : String)
  deriving DecidableEq, Repr

/-- All items up to the end; a comment may start only where a line starts. -/
def items : Nat → Bool → Reader (List Item)
  | 0, _ => failure
  | fuel + 1, startsLine => do
    let blanks ← takeWhile Text.isBlank
    let startsLine := (blanks.getLast?.map (· == '\n')).getD startsLine
    match ← peek? with
    | none => return []
    | some c =>
      if c = ';' || c = '#' then
        if !startsLine then failure
        let _ ← takeWhile (· ≠ '\n')
        let _ ← accept "\n"
        items fuel true
      else if c = '[' then
        let _ ← next
        let name ← upTo (· == ']') fuel
        expect ']'
        return .head (String.ofList (Text.trim name)) :: (← items fuel false)
      else
        let name := Text.trim (← upTo (fun c => c == '=' || c == ':') fuel)
        if name.isEmpty then failure
        let _ ← next
        let value ← value fuel
        return .setting (String.ofList name) value :: (← items fuel false)

/-- What has been given so far, and the path of the section at hand. -/
structure Progress where
  given : Source := []
  inside : List String := []

/-- Takes in an item; a head clears what was given under its name. -/
def Progress.take (progress : Progress) : Item → Progress
  | .head name => { given := progress.given.withField name [], inside := [name] }
  | .setting name value =>
    { progress with given := progress.given ++ [⟨progress.inside ++ [name], .text value⟩] }

/-- What a file gives. -/
def source? (text : String) : Option Source := do
  let items ← (items (text.length + 2) true).all? text
  let progress := items.foldl Progress.take {}
  return progress.given.map Entry.ofNames

end IngestCoordinator.Settings.IniFile
