-- SUMMARY: JSON values as trees of lexemes: reading from tokens and compact writing.
import IngestCoordinator.Json.Token

/-!
# JSON values

A value is a tree whose leaves are lexemes, so nothing of a text is lost but the
blanks: the fields of an object keep their order and repeats. The reader is a
machine over the tokens with a stack of the arrays and objects that are still
open; it runs once through the tokens and never goes back.
-/

namespace IngestCoordinator

/-- A JSON value, with numbers and strings as they are written. -/
inductive Json where
  | null
  | bool (value : Bool)
  | number (lexeme : Bytes)
  | string (lexeme : Bytes)
  | array (items : List Json)
  | object (fields : List (Bytes × Json))
  deriving Repr

namespace Json

/-! ## Writing -/

mutual

/-- The tokens of a value, in the order in which they are written. -/
def tokens : Json → List Token
  | .null => [.null]
  | .bool value => [.bool value]
  | .number lexeme => [.number lexeme]
  | .string lexeme => [.string lexeme]
  | .array items => .openBracket :: (itemTokens items ++ [.closeBracket])
  | .object fields => .openBrace :: (fieldTokens fields ++ [.closeBrace])

/-- The tokens of the items of an array, separated by commas. -/
def itemTokens : List Json → List Token
  | [] => []
  | item :: items => item.tokens ++ moreItemTokens items

/-- The tokens of the items after the first, each behind a comma. -/
def moreItemTokens : List Json → List Token
  | [] => []
  | item :: items => .comma :: (item.tokens ++ moreItemTokens items)

/-- The tokens of the fields of an object, separated by commas. -/
def fieldTokens : List (Bytes × Json) → List Token
  | [] => []
  | field :: fields => pairTokens field ++ moreFieldTokens fields

/-- The tokens of the fields after the first, each behind a comma. -/
def moreFieldTokens : List (Bytes × Json) → List Token
  | [] => []
  | field :: fields => .comma :: (pairTokens field ++ moreFieldTokens fields)

/-- The tokens of one field: the name, a colon and the value. -/
def pairTokens : Bytes × Json → List Token
  | (name, value) => .string name :: .colon :: value.tokens

end

/-- The compact text of a value: its tokens with nothing between them. -/
def write (value : Json) : Bytes :=
  value.tokens.flatMap Token.write

/-! ## Reading -/

/-- An array or object that is still open: what it holds so far, the latest first. -/
inductive Frame where
  | items (before : List Json)
  | fields (before : List (Bytes × Json)) (name : Bytes)

mutual

/-- Reads the value that starts here; `open_` lists what it stands in, innermost first. -/
def readValue : List Token → List Frame → Option Json
  | .null :: rest, open_ => resume .null rest open_
  | .bool value :: rest, open_ => resume (.bool value) rest open_
  | .number lexeme :: rest, open_ => resume (.number lexeme) rest open_
  | .string lexeme :: rest, open_ => resume (.string lexeme) rest open_
  | .openBracket :: .closeBracket :: rest, open_ => resume (.array []) rest open_
  | .openBracket :: rest, open_ => readValue rest (.items [] :: open_)
  | .openBrace :: .closeBrace :: rest, open_ => resume (.object []) rest open_
  | .openBrace :: .string name :: .colon :: rest, open_ =>
    readValue rest (.fields [] name :: open_)
  | _, _ => none

/-- Goes on after a finished value. -/
def resume (value : Json) : List Token → List Frame → Option Json
  | [], [] => some value
  | .comma :: rest, .items before :: open_ => readValue rest (.items (value :: before) :: open_)
  | .closeBracket :: rest, .items before :: open_ =>
    resume (.array (value :: before).reverse) rest open_
  | .comma :: .string next :: .colon :: rest, .fields before name :: open_ =>
    readValue rest (.fields ((name, value) :: before) next :: open_)
  | .closeBrace :: rest, .fields before name :: open_ =>
    resume (.object ((name, value) :: before).reverse) rest open_
  | _, _ => none

end

/-- The value that a whole sequence of tokens is. -/
def ofTokens? (tokens : List Token) : Option Json :=
  readValue tokens []

/-- The value that a whole text is. -/
def parse? (text : Bytes) : Option Json :=
  (Token.scan text).bind ofTokens?

end Json

end IngestCoordinator
