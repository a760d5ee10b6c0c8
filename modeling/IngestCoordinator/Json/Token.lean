-- SUMMARY: JSON tokens: the lexemes of the format, their scanner and their writer.
import IngestCoordinator.Text.Bytes

/-!
# JSON tokens

A JSON text is a sequence of tokens with blanks between them. Numbers and
strings are kept as they are written: a number lexeme is a run of the number
grammar, a string lexeme is what stands between the quotes, escapes included. A
string lexeme need not denote a string (half of a surrogate pair, bytes that are
no UTF-8); only who reads its meaning finds out.
-/

namespace IngestCoordinator.Json

/-- A token of a JSON text. -/
inductive Token where
  | openBrace
  | closeBrace
  | openBracket
  | closeBracket
  | comma
  | colon
  | null
  | bool (value : Bool)
  | number (lexeme : Bytes)
  | string (lexeme : Bytes)
  deriving DecidableEq, Repr

/-! ## Numbers -/

namespace Number

/-- The exponent of a number: nothing, or a letter, an optional sign and digits. -/
def isExponent : Bytes → Bool
  | [] => true
  | e :: bs =>
    (e == 101 || e == 69) &&
      match bs with
      | [] => false
      | b :: ds =>
        if b == 43 || b == 45 then !ds.isEmpty && ds.all Bytes.isDigit
        else (b :: ds).all Bytes.isDigit

/-- What may follow the whole part of a number: a point with digits, and an exponent. -/
def isFraction : Bytes → Bool
  | 46 :: b :: bs => Bytes.isDigit b && isExponent (bs.dropWhile Bytes.isDigit)
  | bs => isExponent bs

/-- A number without its sign: the whole part has no leading zero. -/
def isMagnitude : Bytes → Bool
  | [] => false
  | b :: bs =>
    if b == 48 then isFraction bs
    else Bytes.isDigit b && isFraction (bs.dropWhile Bytes.isDigit)

/-- The number grammar. -/
def isNumber : Bytes → Bool
  | 45 :: bs => isMagnitude bs
  | bs => isMagnitude bs

/-- The bytes that occur in numbers. -/
def isNumberByte (b : UInt8) : Bool :=
  Bytes.isDigit b || b == 43 || b == 45 || b == 46 || b == 69 || b == 101

end Number

/-! ## Strings -/

/-- The letters that make a two-letter escape. -/
def isShortEscape (b : UInt8) : Bool :=
  b == 34 || b == 92 || b == 47 || b == 98 || b == 102 || b == 110 || b == 114 || b == 116

/--
Splits what follows an opening quote at the closing one. Control characters must
be escaped, a backslash starts one of the format's escapes, and any other byte
stands for itself.
-/
def splitString? : Bytes → Option (Bytes × Bytes)
  | [] => none
  | b :: bs =>
    if b = 34 then some ([], bs)
    else if b < 32 then none
    else if b = 92 then
      match bs with
      | 117 :: h₁ :: h₂ :: h₃ :: h₄ :: bs =>
        if [h₁, h₂, h₃, h₄].all fun h => (Bytes.hexDigit? h).isSome then
          (splitString? bs).map fun (l, r) => (92 :: 117 :: h₁ :: h₂ :: h₃ :: h₄ :: l, r)
        else none
      | e :: bs =>
        if isShortEscape e then (splitString? bs).map fun (l, r) => (92 :: e :: l, r) else none
      | [] => none
    else (splitString? bs).map fun (l, r) => (b :: l, r)

theorem length_lt_of_splitString? {bs lexeme rest : Bytes}
    (h : splitString? bs = some (lexeme, rest)) : rest.length < bs.length := by
  fun_induction splitString? bs generalizing lexeme rest <;>
    simp_all only [Option.map_eq_some_iff, Prod.exists, Prod.mk.injEq, reduceCtorEq,
      Option.some.injEq, List.length_cons]
  · obtain ⟨-, rfl⟩ := h
    omega
  all_goals
    rename_i ih
    obtain ⟨l, r, hr, -, rfl⟩ := h
    have := ih hr
    omega

/-! ## Scanning -/

/-- The blanks of the format. -/
def isBlank (b : UInt8) : Bool :=
  b == 32 || b == 9 || b == 10 || b == 13

/-- The ASCII lower-case letters, of which the format's words consist. -/
def isLower (b : UInt8) : Bool :=
  97 ≤ b && b ≤ 122

/-- The token that a single byte is. -/
def Token.ofByte? (b : UInt8) : Option Token :=
  match Bytes.letter b with
  | '{' => some .openBrace
  | '}' => some .closeBrace
  | '[' => some .openBracket
  | ']' => some .closeBracket
  | ',' => some .comma
  | ':' => some .colon
  | _ => none

/-- The token that a word is. -/
def Token.ofWord? (word : Bytes) : Option Token :=
  if word = Bytes.ofString "null" then some .null
  else if word = Bytes.ofString "true" then some (.bool true)
  else if word = Bytes.ofString "false" then some (.bool false)
  else none

/-- The tokens of a text. Words and numbers are taken as long as they go. -/
def Token.scan : Bytes → Option (List Token)
  | [] => some []
  | b :: bs =>
    if isBlank b then scan bs
    else if b = 34 then
      match _h : splitString? bs with
      | none => none
      | some (lexeme, rest) => (scan rest).map (.string lexeme :: ·)
    else if isLower b then
      match ofWord? (b :: bs.takeWhile isLower) with
      | none => none
      | some token => (scan (bs.dropWhile isLower)).map (token :: ·)
    else
      match ofByte? b with
      | some token => (scan bs).map (token :: ·)
      | none =>
        let lexeme := b :: bs.takeWhile Number.isNumberByte
        if Number.isNumber lexeme then
          (scan (bs.dropWhile Number.isNumberByte)).map (.number lexeme :: ·)
        else none
termination_by bs => bs.length
decreasing_by
  all_goals simp only [List.length_cons]
  · omega
  · have := length_lt_of_splitString? ‹_›
    omega
  · have := (List.dropWhile_suffix isLower (l := bs)).length_le
    omega
  · omega
  · have := (List.dropWhile_suffix Number.isNumberByte (l := bs)).length_le
    omega

/-! ## Writing -/

/-- A token as it is written. -/
def Token.write : Token → Bytes
  | .openBrace => [123]
  | .closeBrace => [125]
  | .openBracket => [91]
  | .closeBracket => [93]
  | .comma => [44]
  | .colon => [58]
  | .null => Bytes.ofString "null"
  | .bool true => Bytes.ofString "true"
  | .bool false => Bytes.ofString "false"
  | .number lexeme => lexeme
  | .string lexeme => 34 :: (lexeme ++ [34])

end IngestCoordinator.Json
