-- SUMMARY: Readers: what is read from the front of a text, and what is left of it.
import IngestCoordinator.Text.Bytes

/-!
# Readers

A reader takes characters from the front of a text. It gives what it has read and
leaves the rest, or it fails.
-/

namespace IngestCoordinator

/-- A reader of characters. -/
abbrev Reader (α : Type) := StateT (List Char) Option α

namespace Reader

/-- The next character, which stays unread. -/
def peek? : Reader (Option Char) := do
  return (← get).head?

/-- Reads one character. -/
def next : Reader Char := fun text =>
  match text with
  | [] => none
  | c :: rest => some (c, rest)

/-- Reads one character, which must be the given one. -/
def expect (c : Char) : Reader Unit := do
  if (← next) ≠ c then failure

/-- Reads a text if it is next; says whether it was. -/
def accept (word : String) : Reader Bool := do
  let text ← get
  if word.toList.isPrefixOf text then
    set (text.drop word.length)
    return true
  else return false

/-- Reads characters as long as they are of a kind. -/
def takeWhile (p : Char → Bool) : Reader (List Char) := do
  let text ← get
  set (text.dropWhile p)
  return text.takeWhile p

/-- Reads over a text and all before it. -/
def skipPast (word : String) : Reader Unit := do
  let rec after? : List Char → Option (List Char)
    | [] => none
    | c :: rest =>
      if word.toList.isPrefixOf (c :: rest) then some ((c :: rest).drop word.length)
      else after? rest
  match after? (← get) with
  | none => failure
  | some rest => set rest

/-- The value of a hexadecimal digit of either case. -/
def hexDigit? (c : Char) : Option Nat :=
  if c.toNat < 128 then Bytes.hexDigit? (UInt8.ofNat c.toNat) else none

/-- Reads the character of a number of hexadecimal digits. -/
def hexChar (digits : Nat) : Reader Char := do
  let text ← get
  let values := (text.take digits).filterMap hexDigit?
  if values.length ≠ digits then failure
  set (text.drop digits)
  let n := values.foldl (fun n value => n * 16 + value) 0
  if n.isValidChar then return Char.ofNat n else failure

/-- What a reader gives for a text that it reads to the end. -/
def all? (reader : Reader α) (text : String) : Option α :=
  match reader text.toList with
  | some (a, []) => some a
  | _ => none

end Reader

end IngestCoordinator
