-- SUMMARY: TOML values: texts, numbers, moments, arrays and tables on one line.
import IngestCoordinator.Settings.Format.Toml.Table
import IngestCoordinator.Text.Calendar

/-!
# TOML values

A value gives plain values to the paths below its own: a table on one line several or
none, an array one that no setting can be, and anything else itself. Dates and times
are texts.
-/

namespace IngestCoordinator.Settings.TomlFile

open Reader

/-! ## Blanks -/

def isBlank (c : Char) : Bool :=
  c == ' ' || c == '\t'

/-- Reads over blanks. -/
def skipBlanks : Reader Unit := do
  let _ ← takeWhile isBlank

/-- A control character that may not stand in a text or a comment. -/
def isControl (c : Char) : Bool :=
  (c.toNat < 32 && c ≠ '\t') || c.toNat = 127

/-- Reads the end of a line, if it is next; says whether it was. -/
def lineEnd : Reader Bool := do
  if ← accept "\r\n" then return true else accept "\n"

/-- Reads a comment, if there is one. -/
def skipComment : Reader Unit := do
  if ← accept "#" then
    let _ ← takeWhile fun c => !isControl c

/-- Reads over blanks and ends of lines. -/
def skipBreaks : Nat → Reader Unit
  | 0 => return
  | fuel + 1 => do
    skipBlanks
    if ← lineEnd then skipBreaks fuel

/-- Reads over blanks, comments and ends of lines. -/
def skipLines : Nat → Reader Unit
  | 0 => return
  | fuel + 1 => do
    skipBlanks
    skipComment
    if ← lineEnd then skipLines fuel

/-! ## Texts -/

/-- The character that an escape stands for, behind the backslash. -/
def escape : Reader Char := do
  match ← next with
  | 'b' => return Char.ofNat 8
  | 't' => return '\t'
  | 'n' => return '\n'
  | 'f' => return Char.ofNat 12
  | 'r' => return '\r'
  | '"' => return '"'
  | '\\' => return '\\'
  | 'u' => hexChar 4
  | 'U' => hexChar 8
  | _ => failure

/-- The rest of a text on one line, up to its quote. -/
def lineText (quote : Char) : Nat → Reader (List Char)
  | 0 => failure
  | fuel + 1 => do
    let c ← next
    if c = quote then return []
    else if c = '\\' && quote = '"' then return (← escape) :: (← lineText quote fuel)
    else if isControl c then failure
    else return c :: (← lineText quote fuel)

/--
The rest of a text on several lines, up to three quotes; one or two quotes belong to
it, also right before the three. Each end of a line is a newline, and a backslash at
the end of a line takes the blanks and the ends of lines behind it along.
-/
def longText (quote : Char) : Nat → Reader (List Char)
  | 0 => failure
  | fuel + 1 => do
    let quotes ← takeWhile (· == quote)
    if 5 < quotes.length then failure
    else if 2 < quotes.length then return quotes.drop 3
    else if !quotes.isEmpty then return quotes ++ (← longText quote fuel)
    else if ← lineEnd then return '\n' :: (← longText quote fuel)
    let c ← next
    if c = '\\' && quote = '"' then
      match ((← get).dropWhile isBlank).head? with
      | some '\n' | some '\r' =>
        skipBlanks
        if !(← lineEnd) then failure
        skipBreaks fuel
        longText quote fuel
      | _ => return (← escape) :: (← longText quote fuel)
    else if isControl c then failure
    else return c :: (← longText quote fuel)

/-- A quoted text; on several lines, the end of a line right behind the quotes is left out. -/
def quoted (quote : Char) : Reader String := do
  let fuel := (← get).length + 1
  if ← accept (String.ofList [quote, quote, quote]) then
    let _ ← lineEnd
    return String.ofList (← longText quote fuel)
  else
    expect quote
    return String.ofList (← lineText quote fuel)

/-! ## Numbers -/

/-- Digits, with single underscores between them. -/
def digits? (isDigit : Char → Bool) : List Char → Option (List Char)
  | [] => none
  | [c] => if isDigit c then some [c] else none
  | c :: '_' :: rest => if isDigit c then (digits? isDigit rest).map (c :: ·) else none
  | c :: rest => if isDigit c then (digits? isDigit rest).map (c :: ·) else none

/-- Digits that do not start with a zero, unless it is the only one. -/
def whole? (text : List Char) : Option (List Char) := do
  let digits ← digits? Char.isDigit text
  if digits.length ≠ 1 && digits.head? = some '0' then none else some digits

/-- A number to another base than ten. -/
def based? (base : Nat) (text : List Char) : Option Scalar := do
  let value? (c : Char) : Option Nat := (hexDigit? c).filter (· < base)
  let digits ← digits? (fun c => (value? c).isSome) text
  let n := (digits.filterMap value?).foldl (fun n value => n * base + value) 0
  if n < 0x8000000000000000 then some (.int n) else none

/-- A fraction or power without its sign and with its underscores left out. -/
def fraction? (text : List Char) : Option (List Char) := do
  let isExponent (c : Char) : Bool := c == 'e' || c == 'E'
  let mantissa := text.takeWhile fun c => !isExponent c
  let exponent ←
    match text.dropWhile fun c => !isExponent c with
    | [] => some []
    | e :: '-' :: rest => (digits? Char.isDigit rest).map ([e, '-'] ++ ·)
    | e :: '+' :: rest => (digits? Char.isDigit rest).map (e :: ·)
    | e :: rest => (digits? Char.isDigit rest).map (e :: ·)
  let whole ← whole? (mantissa.takeWhile (· ≠ '.'))
  match mantissa.dropWhile (· ≠ '.') with
  | [] => if exponent.isEmpty then none else some (whole ++ exponent)
  | _ :: places => do return whole ++ '.' :: (← digits? Char.isDigit places) ++ exponent

/-- A number with an optional sign; it may be too small to be finite, but not too large. -/
def number? (text : List Char) : Option Scalar :=
  let (negative, magnitude) :=
    match text with
    | '-' :: rest => (true, rest)
    | '+' :: rest => (false, rest)
    | rest => (false, rest)
  let signed (x : Float) : Float := if negative then -x else x
  if magnitude = "inf".toList then some (.real (signed (1 / 0)))
  else if magnitude = "nan".toList then some (.real (signed (0 / 0)))
  else
    match whole? magnitude with
    | some digits =>
      let n := (Real.digitsValue (Bytes.ofString (String.ofList digits)) : Int)
      let n := if negative then -n else n
      if -0x8000000000000000 ≤ n ∧ n < 0x8000000000000000 then some (.int n) else none
    | none => do
      let text ← fraction? magnitude
      let x ← Real.parse? (Bytes.ofString (String.ofList text))
      if x.isInf && !negative then none else some (.real (signed x))

/-- A truth value or a number. -/
def word? (text : List Char) : Option Scalar :=
  match text with
  | ['t', 'r', 'u', 'e'] => some (.bool true)
  | ['f', 'a', 'l', 's', 'e'] => some (.bool false)
  | '0' :: 'x' :: rest => based? 16 rest
  | '0' :: 'o' :: rest => based? 8 rest
  | '0' :: 'b' :: rest => based? 2 rest
  | _ => number? text

/-- A date or time, or else a word. -/
def plain : Reader Scalar :=
  (do return .text (String.ofList (← Calendar.Moment.reader).write)) <|>
  (do
    let word ← takeWhile fun c => c.isAlphanum || c == '_' || c == '+' || c == '-' || c == '.'
    match word? word with
    | some scalar => return scalar
    | none => failure)

/-! ## Names -/

/-- One part of a name. -/
def namePart : Reader String := do
  match ← peek? with
  | some '"' => inQuotes '"'
  | some '\'' => inQuotes '\''
  | _ =>
    let name ← takeWhile fun c => c.isAlphanum || c == '_' || c == '-'
    if name.isEmpty then failure
    return String.ofList name
where
  inQuotes (quote : Char) : Reader String := do
    let fuel := (← get).length
    expect quote
    return String.ofList (← lineText quote fuel)

/-- A name: so many parts at most, with points between them. -/
def nameOf : Nat → Reader (List String)
  | 0 => failure
  | parts + 1 => do
    skipBlanks
    let part ← namePart
    skipBlanks
    if ← accept "." then return part :: (← nameOf parts)
    else return [part]

/-- How many parts a name may have, and how deep arrays and tables may be nested. -/
def maxDepth : Nat := 79

/-- A name with the equals sign behind it. -/
def nameAndEquals : Reader (List String) := do
  let name ← nameOf maxDepth
  expect '='
  skipBlanks
  return name

/-! ## Values -/

mutual

/-- What a value gives to the paths below; the second number is the room for what is nested. -/
def value : Nat → Nat → Reader Source
  | 0, _ => failure
  | fuel + 1, room => do
    match ← peek? with
    | some '"' => return [⟨[], .text (← quoted '"')⟩]
    | some '\'' => return [⟨[], .text (← quoted '\'')⟩]
    | some '[' =>
      if room = 0 then failure
      let _ ← next
      items fuel (room - 1)
      return [⟨[], .other⟩]
    | some '{' =>
      if room = 0 then failure
      let _ ← next
      skipBlanks
      if ← accept "\x7d" then return []
      return fieldsGiven (← fields fuel (room - 1) [])
    | _ => return [⟨[], ← plain⟩]
termination_by structural fuel => fuel

/-- The items of an array, up to its end. -/
def items : Nat → Nat → Reader Unit
  | 0, _ => failure
  | fuel + 1, room => do
    skipLines fuel
    if ← accept "]" then return
    let _ ← value fuel room
    skipLines fuel
    if ← accept "," then items fuel room else expect ']'
termination_by structural fuel => fuel

/-- The fields of a table on one line, on top of those before, up to its end. -/
def fields : Nat → Nat → Fields → Reader Fields
  | 0, _, _ => failure
  | fuel + 1, room, before => do
    let name ← nameAndEquals
    let given ← value fuel room
    skipBlanks
    match before.add name given .headed with
    | none => failure
    | some all =>
      if ← accept "," then fields fuel room all
      else
        expect (Char.ofNat 125)
        return all
termination_by structural fuel => fuel

end

end IngestCoordinator.Settings.TomlFile
