-- SUMMARY: What YAML texts without quotes mean: nothing, truth values, integers, numbers, texts.
import IngestCoordinator.Settings.Source
import IngestCoordinator.Text.Reader

/-!
# Meaning of plain texts

A text without quotes is an integer, null, a truth value, a number or a text, whatever
it can first be read as, unless a tag tells its type. The words with a point for
infinity and for what is no number count as numbers, and none of them can be read.
-/

namespace IngestCoordinator.Settings.YamlFile

/-- What a value is. -/
inductive Node where
  /-- A value that is not there: its tag contradicts its text, or it stands in itself. -/
  | unset
  | plain (value : Scalar)
  /-- A mapping: what its fields give. -/
  | mapping (given : Source)

/-- An integer of 64 bits. -/
def integer? (word : String) : Option Scalar :=
  (Decimal.readSigned (Bytes.ofString word)).toOption.map fun value => .int value.toInt

/-- An integer of 64 bits to another base than ten, with an optional sign. -/
def based? (base : Nat) (text : List Char) : Option Scalar := do
  let negative := text.head? = some '-'
  let digits := if negative || text.head? = some '+' then text.tail else text
  let values ← digits.mapM fun c => (Reader.hexDigit? c).filter (· < base)
  if values.isEmpty then none
  else
    let n : Nat := values.foldl (fun n value => n * base + value) 0
    if negative then if n ≤ 0x8000000000000000 then some (.int (-n)) else none
    else if n < 0x8000000000000000 then some (.int n) else none

/-- An integer with its base in front, or with a sign more than integers have. -/
def marked? (word : String) : Option Scalar :=
  match word.toList with
  | '0' :: 'x' :: rest => based? 16 rest
  | '0' :: 'o' :: rest => based? 8 rest
  | '+' :: rest => integer? (String.ofList rest)
  | _ => none

/-- The words that count as numbers and cannot be read. -/
def unreadable : List String :=
  [".inf", ".Inf", ".INF", "+.inf", "+.Inf", "+.INF", "-.inf", "-.Inf", "-.INF", ".nan", ".NAN"]

/-- A number, if the word counts as one; then it may still not be readable. -/
def real? (word : String) : Option (Option Scalar) :=
  if unreadable.contains word then some none
  else (Real.parse? (Bytes.ofString word)).map fun value => some (.real value)

/-- What a text without quotes is, unless it cannot be read. -/
def scalar? (word : String) : Option Scalar :=
  match marked? word with
  | some value => some value
  | none =>
    if ["", "~", "null"].contains word then some .other
    else if word = "true" then some (.bool true)
    else if word = "false" then some (.bool false)
    else ((integer? word).map some).getD ((real? word).getD (some (.text word)))

/-- What a text without quotes is that has a tag of the basic types, unless it cannot be read. -/
def typed? (type word : String) : Option Node :=
  match type with
  | "bool" =>
    if word = "true" then some (.plain (.bool true))
    else if word = "false" then some (.plain (.bool false))
    else some .unset
  | "int" => some (((integer? word).map Node.plain).getD .unset)
  | "float" =>
    match real? word with
    | none => some .unset
    | some value => value.map Node.plain
  | "null" => some (if word = "~" || word = "null" then .plain .other else .unset)
  | _ => some (.plain (.text word))

end IngestCoordinator.Settings.YamlFile
