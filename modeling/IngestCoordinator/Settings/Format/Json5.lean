-- SUMMARY: JSON5 files as sources of settings.
import IngestCoordinator.Settings.Path
import IngestCoordinator.Text.Letter

/-!
# JSON5 sources

The file is an object, with the liberties that JSON5 takes: comments, commas at the
end, names without quotes, texts in single quotes, and numbers in more spellings.
Of several fields of one name the last counts.
-/

namespace IngestCoordinator.Settings.Json5File

open Reader

/-! ## Blanks -/

/-- A character that ends a line. -/
def isLineEnd (c : Char) : Bool :=
  c == '\n' || c == '\r' || c.toNat = 0x2028 || c.toNat = 0x2029

/-- A character that separates and means nothing. -/
def isBlank (c : Char) : Bool :=
  isLineEnd c || c == ' ' || c == '\t' ||
    [0x0B, 0x0C, 0xA0, 0x1680, 0x202F, 0x205F, 0x3000, 0xFEFF].contains c.toNat ||
    (0x2000 ≤ c.toNat && c.toNat ≤ 0x200A)

/-- Reads over blanks and comments. -/
def skip : Nat → Reader Unit
  | 0 => return
  | fuel + 1 => do
    let _ ← takeWhile isBlank
    if ← accept "//" then
      let _ ← takeWhile fun c => !isLineEnd c
      skip fuel
    else if ← accept "/*" then
      skipPast "*/"
      skip fuel

/-! ## Words, numbers and texts -/

/-- A character that names without quotes start with. -/
def startsName (c : Char) : Bool :=
  Text.isLetter c || c == '_' || c == '$'

/-- A character that names without quotes go on with; two of them join letters unseen. -/
def continuesName (c : Char) : Bool :=
  startsName c || Text.isMark c || c.toNat = 0x200C || c.toNat = 0x200D

/-- A number in hexadecimal digits, of 32 bits at most. -/
def hex? (digits : List Char) : Option Scalar := do
  let values ← digits.mapM hexDigit?
  let n : Nat := values.foldl (fun n value => n * 16 + value) 0
  if values.isEmpty || 0x100000000 ≤ n then none else some (.int n)

/-- A decimal: an integer if it has neither a point nor an exponent. -/
def decimal? (text : List Char) : Option Scalar :=
  let unsigned := if text.head? = some '-' || text.head? = some '+' then text.tail else text
  let whole := unsigned.takeWhile Char.isDigit
  let bytes := Bytes.ofString (String.ofList text)
  if (whole.head? = some '0' && whole.length ≠ 1) || unsigned.head?.any Char.isAlpha then none
  else if whole.length = unsigned.length then
    (Decimal.readSigned bytes).toOption.map fun value => .int value.toInt
  else
    (Real.parse? bytes).bind fun value => if value.isInf then none else some (.real value)

/-- A word without quotes: null, a truth value or a number. -/
def word? (text : List Char) : Option Scalar :=
  match String.ofList text with
  | "null" => some .other
  | "true" => some (.bool true)
  | "false" => some (.bool false)
  | "Infinity" | "+Infinity" => some (.real (1 / 0))
  | "-Infinity" => some (.real (-1 / 0))
  | "NaN" | "+NaN" | "-NaN" => some (.real (0 / 0))
  | _ =>
    match text with
    | '0' :: 'x' :: digits | '0' :: 'X' :: digits => hex? digits
    | _ => decimal? text

/-- The code unit that four hexadecimal digits give. -/
def unit : Reader Nat := do
  let text ← get
  let values := (text.take 4).filterMap hexDigit?
  if values.length ≠ 4 then failure
  set (text.drop 4)
  return values.foldl (fun n value => n * 16 + value) 0

/--
The character that an escape with a code unit stands for, behind its letter; the first
half of a pair of surrogates must be followed by an escape with the second.
-/
def unicode : Reader Char := do
  let lead ← unit
  if lead < 0xD800 || 0xDFFF < lead then return Char.ofNat lead
  else if 0xDC00 ≤ lead then failure
  else
    expect '\\'
    expect 'u'
    let trail ← unit
    if trail < 0xDC00 || 0xDFFF < trail then failure
    return Char.ofNat (0x10000 + (lead - 0xD800) * 0x400 + (trail - 0xDC00))

/-- The text that an escape stands for, behind the backslash. -/
def escape : Reader (List Char) := do
  match ← next with
  | 'b' => return [Char.ofNat 8]
  | 'f' => return [Char.ofNat 12]
  | 'n' => return ['\n']
  | 'r' => return ['\r']
  | 't' => return ['\t']
  | 'v' => return [Char.ofNat 11]
  | '0' => return [Char.ofNat 0]
  | 'x' => return [← hexChar 2]
  | 'u' => return [← unicode]
  | '\r' =>
    let _ ← accept "\n"
    return []
  | c => if c.isDigit then failure else return if isLineEnd c then [] else [c]

/-- The rest of a text, up to its quote. -/
def quoted (quote : Char) : Nat → Reader (List Char)
  | 0 => failure
  | fuel + 1 => do
    let c ← next
    if c = quote then return []
    else if c = '\\' then return (← escape) ++ (← quoted quote fuel)
    else if isLineEnd c then failure
    else return c :: (← quoted quote fuel)

/-- The rest of a name without quotes, in which escapes may stand for any characters. -/
def plainName (allowed : Char → Bool) : Nat → Reader (List Char)
  | 0 => failure
  | fuel + 1 => do
    if ← accept "\\" then
      expect 'u'
      return (← unicode) :: (← plainName continuesName fuel)
    else if (← peek?).any allowed then return (← next) :: (← plainName continuesName fuel)
    else return []

/-- The name of a field. -/
def name (fuel : Nat) : Reader String := do
  match ← peek? with
  | some '"' | some '\'' =>
    let quote ← next
    return String.ofList (← quoted quote fuel)
  | _ =>
    let name ← plainName startsName fuel
    if name.isEmpty then failure
    return String.ofList name

/-! ## Values -/

mutual

/-- What a value gives. -/
def value : Nat → Reader Source
  | 0 => failure
  | fuel + 1 => do
    match ← peek? with
    | some '{' =>
      let _ ← next
      skip fuel
      if ← accept "\x7d" then return [] else fields fuel []
    | some '[' =>
      let _ ← next
      skip fuel
      if !(← accept "]") then items fuel
      return [⟨[], .other⟩]
    | some '"' | some '\'' =>
      let quote ← next
      return [⟨[], .text (String.ofList (← quoted quote fuel))⟩]
    | _ =>
      let word ← takeWhile fun c => c.isAlphanum || c == '+' || c == '-' || c == '.'
      match word? word with
      | some scalar => return [⟨[], scalar⟩]
      | none => failure

/-- The items of an array that is not empty, up to its end. -/
def items : Nat → Reader Unit
  | 0 => failure
  | fuel + 1 => do
    let _ ← value fuel
    skip fuel
    if ← accept "," then
      skip fuel
      if !(← accept "]") then items fuel
    else expect ']'

/-- The fields of an object that is not empty, on top of those before, up to its end. -/
def fields : Nat → Source → Reader Source
  | 0, _ => failure
  | fuel + 1, before => do
    let name ← name fuel
    skip fuel
    expect ':'
    skip fuel
    let all := before.withField name (← value fuel)
    skip fuel
    if ← accept "," then
      skip fuel
      if ← accept "\x7d" then return all else fields fuel all
    else
      expect (Char.ofNat 125)
      return all

end

/-- The object that the whole text is. -/
def document (fuel : Nat) : Reader Source := do
  skip fuel
  if (← peek?) ≠ some (Char.ofNat 123) then failure
  let given ← value fuel
  skip fuel
  return given

/-- What a file gives. -/
def source? (text : String) : Option Source :=
  ((document (text.length + 1)).all? text).map fun given => given.map Entry.ofNames

end IngestCoordinator.Settings.Json5File
