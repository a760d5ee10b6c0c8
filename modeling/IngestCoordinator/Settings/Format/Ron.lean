-- SUMMARY: RON files as sources of settings.
import IngestCoordinator.Settings.Path
import IngestCoordinator.Text.Reader

/-!
# RON sources

The file is a structure in parentheses or a map in braces, behind attributes that may
switch on extensions; none of these matters to plain values. Names before parentheses
mean nothing, and a value may be wrapped as one that is there. Of several fields of
one name the last counts.
-/

namespace IngestCoordinator.Settings.RonFile

open Reader

/-! ## Blanks -/

/-- A character that separates and means nothing. -/
def isBlank (c : Char) : Bool :=
  c == ' ' || c == '\t' || c == '\n' || c == '\r'

/-- Reads over the rest of a comment, in which there may be comments. -/
def skipComment : Nat → Nat → Reader Unit
  | 0, _ => failure
  | fuel + 1, depth => do
    if ← accept "*/" then
      if depth ≠ 0 then skipComment fuel (depth - 1)
    else if ← accept "/*" then skipComment fuel (depth + 1)
    else
      let _ ← next
      skipComment fuel depth

/-- Reads over blanks and comments. -/
def skip : Nat → Reader Unit
  | 0 => return
  | fuel + 1 => do
    let _ ← takeWhile isBlank
    if ← accept "//" then
      let _ ← takeWhile fun c => c ≠ '\n'
      skip fuel
    else if ← accept "/*" then
      skipComment fuel 0
      skip fuel

/-- Reads a comma with what is around it, if it is next; says whether it was. -/
def comma (fuel : Nat) : Reader Bool := do
  skip fuel
  let found ← accept ","
  if found then skip fuel
  return found

/-! ## Names -/

/-- A character that names start with. -/
def startsName (c : Char) : Bool :=
  c.isAlpha || c == '_'

/-- A character that names consist of. -/
def isNameChar (c : Char) : Bool :=
  startsName c || c.isDigit

/-- A character that names consist of which are marked as raw. -/
def isRawChar (c : Char) : Bool :=
  isNameChar c || c == '.' || c == '+' || c == '-'

/-- Whether a whole word is next. -/
def wordNext (word : String) : Reader Bool := do
  let text ← get
  return word.toList.isPrefixOf text && !(text.drop word.length).head?.any isNameChar

/-- Reads a whole word if it is next; says whether it was. -/
def acceptWord (word : String) : Reader Bool := do
  if ← wordNext word then accept word else return false

/-- Reads a name, raw or not; what goes on like a raw name must be marked as one. -/
def name : Reader String := do
  match ← get with
  | 'r' :: '"' :: _ => failure
  | 'r' :: '#' :: rest =>
    set rest
    let body ← takeWhile isRawChar
    if body.isEmpty then failure
    return String.ofList body
  | text =>
    if !text.head?.any startsName then failure
    let body ← takeWhile isNameChar
    if (← peek?).any isRawChar then failure
    return String.ofList body

/-- The names of the extensions that attributes may switch on. -/
def extensions : List String :=
  ["unwrap_newtypes", "implicit_some", "unwrap_variant_newtypes"]

/-- Reads the names of extensions, with commas between them. -/
def extensionNames : Nat → Reader Unit
  | 0 => failure
  | fuel + 1 => do
    if !extensions.contains (← name) then failure
    if ← comma fuel then
      if (← peek?).any isNameChar then extensionNames fuel

/-- Reads over all attributes and the blanks around them. -/
def attributes : Nat → Reader Unit
  | 0 => failure
  | fuel + 1 => do
    skip fuel
    if (← peek?) = some '#' then
      pieces fuel ["#", "!", "[", "enable", "("]
      extensionNames fuel
      skip fuel
      pieces fuel [")", "]"]
      attributes fuel
where
  pieces (fuel : Nat) : List String → Reader Unit
    | [] => return
    | piece :: rest => do
      if !(← accept piece) then failure
      skip fuel
      pieces fuel rest

/-! ## Numbers -/

def isIntegerChar (c : Char) : Bool :=
  (hexDigit? c).isSome || c == '_'

def isRealChar (c : Char) : Bool :=
  c.isDigit || ['e', 'E', '.', '+', '-', '_'].contains c

/-- The base that is next, written behind a zero if it is not ten. -/
def base : Reader Nat := do
  if ← accept "0x" then return 16
  else if ← accept "0o" then return 8
  else if ← accept "0b" then return 2
  else return 10

/--
An integer; underscores behind its first digit mean nothing. Without a sign it may
have 64 bits, and one that needs all of them is a floating-point number.
-/
def integer : Reader Scalar := do
  let negative ← accept "-"
  let positive ← if negative then pure false else accept "+"
  let base ← base
  let text ← takeWhile isIntegerChar
  if text.isEmpty || text.head? = some '_' then failure
  let values := (text.filter (· ≠ '_')).filterMap hexDigit?
  if values.any (base ≤ ·) then failure
  let n : Nat := values.foldl (fun n value => n * base + value) 0
  if negative then
    if n ≤ 0x8000000000000000 then return .int (-n) else failure
  else if n < 0x8000000000000000 then return .int n
  else if !positive && n < 0x10000000000000000 then return .real (Float.ofNat n)
  else failure

/-- A floating-point number, in which underscores are not allowed. -/
def real : Reader Scalar := do
  if ← acceptWord "inf" then return .real (1 / 0)
  else if ← acceptWord "+inf" then return .real (1 / 0)
  else if ← acceptWord "-inf" then return .real (-1 / 0)
  else if ← acceptWord "NaN" then return .real (0 / 0)
  else if ← acceptWord "+NaN" then return .real (0 / 0)
  else if ← acceptWord "-NaN" then return .real (0 / 0)
  else
    let text ← takeWhile isRealChar
    match Real.parse? (Bytes.ofString (String.ofList text)) with
    | some value => return .real value
    | none => failure

/-- A number: an integer, unless it looks like or can only be a floating-point number. -/
def number : Reader Scalar := do
  let text ← get
  let unsigned := if text.head? = some '-' || text.head? = some '+' then text.tail else text
  if (unsigned.takeWhile isIntegerChar).length < (unsigned.takeWhile isRealChar).length then real
  else integer <|> real

/-! ## Texts -/

/-- The character that an escape stands for, behind the backslash. -/
def escape : Reader Char := do
  match ← next with
  | '\'' => return '\''
  | '"' => return '"'
  | '\\' => return '\\'
  | 'n' => return '\n'
  | 'r' => return '\r'
  | 't' => return '\t'
  | '0' => return Char.ofNat 0
  | 'x' => hexChar 2
  | 'u' =>
    expect (Char.ofNat 123)
    let digits := ((← get).takeWhile fun c => (hexDigit? c).isSome).length
    if digits = 0 || 6 < digits then failure
    let c ← hexChar digits
    expect (Char.ofNat 125)
    return c
  | _ => failure

/-- The rest of a text with escapes, up to its quote. -/
def quoted : Nat → Reader (List Char)
  | 0 => failure
  | fuel + 1 => do
    match ← next with
    | '"' => return []
    | '\\' => return (← escape) :: (← quoted fuel)
    | c => return c :: (← quoted fuel)

/-- The rest of a text without escapes, up to the given end. -/
def verbatim (ending : String) : Nat → Reader (List Char)
  | 0 => failure
  | fuel + 1 => do
    if ← accept ending then return [] else return (← next) :: (← verbatim ending fuel)

/-- A text in quotes, or behind the letter r and in hashes and quotes. -/
def text (fuel : Nat) : Reader String := do
  if ← accept "r" then
    let hashes ← takeWhile (· = '#')
    expect '"'
    return String.ofList (← verbatim (String.ofList ('"' :: hashes)) fuel)
  else
    expect '"'
    return String.ofList (← quoted fuel)

/-- A single character in quotes. -/
def letter : Reader String := do
  expect '\''
  let c ← next
  if c = '\'' then failure
  let c ← if c = '\\' then escape else pure c
  expect '\''
  return c.toString

/-! ## Values -/

/-- How deep values may be nested; a value and what holds it count one each. -/
def maxDepth : Nat := 128

/-- The room inside a level, if there is room for one. -/
def inner : Nat → Reader Nat
  | 0 => failure
  | room + 1 => return room

/-- Whether the fields of a structure are next, each with a name. -/
def namedFieldsNext (fuel : Nat) (text : List Char) : Bool :=
  let reader : Reader Unit := do
    let _ ← name
    skip fuel
    expect ':'
  (reader text).isSome

/-- Reads the end of a row of elements if it is next; else one must follow, behind a comma. -/
def endsAt (ending : String) (afterComma : Bool) : Reader Bool := do
  if ← accept ending then return true
  else if afterComma then return false
  else failure

mutual

/-- What a value gives; the second number is the room for what is nested. -/
def value : Nat → Nat → Reader Source
  | 0, _ => failure
  | fuel + 1, room => do
    if ← acceptWord "true" then return [⟨[], .bool true⟩]
    if ← acceptWord "false" then return [⟨[], .bool false⟩]
    if ← acceptWord "Some" then
      skip fuel
      expect '('
      skip fuel
      let given ← value fuel (← inner room)
      let _ ← comma fuel
      expect ')'
      return given
    if ← acceptWord "None" then return [⟨[], .other⟩]
    if ← acceptWord "inf" then return [⟨[], .real (1 / 0)⟩]
    if ← acceptWord "-inf" then return [⟨[], .real (-1 / 0)⟩]
    if ← acceptWord "NaN" then return [⟨[], .real (0 / 0)⟩]
    if (name (← get)).isSome then
      let _ ← name
      skip fuel
      if (← peek?) = some '(' then return (← parenthesized fuel room)
      return [⟨[], .other⟩]
    match ← peek? with
    | some '(' => parenthesized fuel room
    | some '{' =>
      let _ ← next
      mapping fuel (← inner room) true []
    | some '[' =>
      let _ ← next
      items fuel (← inner room) "]" true
      return [⟨[], .other⟩]
    | some '"' | some 'r' => return [⟨[], .text (← text fuel)⟩]
    | some '\'' => return [⟨[], .text (← letter)⟩]
    | some '.' => return [⟨[], ← real⟩]
    | some c => if c.isDigit || c == '+' || c == '-' then return [⟨[], ← number⟩] else failure
    | none => failure
termination_by structural fuel => fuel

/-- A structure, if its fields have names, or else a tuple. -/
def parenthesized : Nat → Nat → Reader Source
  | 0, _ => failure
  | fuel + 1, room => do
    expect '('
    skip fuel
    if namedFieldsNext fuel (← get) then fields fuel (← inner room) true []
    else
      items fuel (← inner room) ")" true
      return [⟨[], .other⟩]
termination_by structural fuel => fuel

/-- The items of a list or a tuple, up to its end. -/
def items : Nat → Nat → String → Bool → Reader Unit
  | 0, _, _, _ => failure
  | fuel + 1, room, ending, afterComma => do
    skip fuel
    if !(← endsAt ending afterComma) then
      let _ ← value fuel (← inner room)
      items fuel room ending (← comma fuel)
termination_by structural fuel => fuel

/-- The fields of a structure, on top of those before, up to its end. -/
def fields : Nat → Nat → Bool → Source → Reader Source
  | 0, _, _, _ => failure
  | fuel + 1, room, afterComma, before => do
    skip fuel
    if ← endsAt ")" afterComma then return before
    let below ← inner room
    let name ← name
    skip fuel
    expect ':'
    skip fuel
    let given ← value fuel below
    fields fuel room (← comma fuel) (before.withField name given)
termination_by structural fuel => fuel

/-- The entries of a map, whose keys are texts or characters, up to its end. -/
def mapping : Nat → Nat → Bool → Source → Reader Source
  | 0, _, _, _ => failure
  | fuel + 1, room, afterComma, before => do
    skip fuel
    if ← endsAt "\x7d" afterComma then return before
    let below ← inner room
    let name ← if (← peek?) = some '\'' then letter else text fuel
    skip fuel
    expect ':'
    skip fuel
    let given ← value fuel below
    mapping fuel room (← comma fuel) (before.withField name given)
termination_by structural fuel => fuel

end

/-- The structure or map that the whole text is. -/
def document (fuel : Nat) : Reader Source := do
  attributes fuel
  let given ← value fuel maxDepth
  skip fuel
  if given.any fun entry => entry.path.isEmpty then failure
  return given

/-- What a file gives. -/
def source? (text : String) : Option Source :=
  ((document (2 * text.length + 4)).all? text).map fun given => given.map Entry.ofNames

end IngestCoordinator.Settings.RonFile
