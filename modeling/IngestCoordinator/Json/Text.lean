-- SUMMARY: The meaning of JSON string lexemes: escaping and unescaping.
import IngestCoordinator.Json.Value

/-!
# JSON strings

A string is written with the quote, the backslash and the control characters
escaped and every other byte as it is. A lexeme is read by undoing the escapes
and taking the bytes as UTF-8; it denotes no string if an escape is half of a
surrogate pair or the bytes are not UTF-8. Main statement: `text?_lexeme`, a
written string reads back.
-/

namespace IngestCoordinator.Json

/-- The way a byte is written inside quotes. -/
def escapeByte (b : UInt8) : Bytes :=
  if b = 34 then [92, 34]
  else if b = 92 then [92, 92]
  else if b = 8 then [92, 98]
  else if b = 9 then [92, 116]
  else if b = 10 then [92, 110]
  else if b = 12 then [92, 102]
  else if b = 13 then [92, 114]
  else if b < 32 then
    [92, 117, 48, 48, Bytes.hexDigit (b.toNat / 16), Bytes.hexDigit (b.toNat % 16)]
  else [b]

/-- The lexeme of a string. -/
def lexeme (s : String) : Bytes :=
  (Bytes.ofString s).flatMap escapeByte

/-- The byte that the letter of a two-letter escape stands for. -/
def ofShortEscape? (b : UInt8) : Option UInt8 :=
  match Bytes.letter b with
  | '"' => some 34
  | '\\' => some 92
  | '/' => some 47
  | 'b' => some 8
  | 'f' => some 12
  | 'n' => some 10
  | 'r' => some 13
  | 't' => some 9
  | _ => none

/-- The value of four hexadecimal digits. -/
def codeUnit? (h₁ h₂ h₃ h₄ : UInt8) : Option Nat := do
  let a ← Bytes.hexDigit? h₁
  let b ← Bytes.hexDigit? h₂
  let c ← Bytes.hexDigit? h₃
  let d ← Bytes.hexDigit? h₄
  return ((a * 16 + b) * 16 + c) * 16 + d

/-- The code units that start a surrogate pair. -/
def isHighSurrogate (unit : Nat) : Bool :=
  0xD800 ≤ unit && unit ≤ 0xDBFF

/-- The code units that end a surrogate pair. -/
def isLowSurrogate (unit : Nat) : Bool :=
  0xDC00 ≤ unit && unit ≤ 0xDFFF

/-- The character that a surrogate pair stands for. -/
def ofSurrogates (high low : Nat) : Char :=
  Char.ofNat (0x10000 + (high - 0xD800) * 0x400 + (low - 0xDC00))

/--
The bytes that a lexeme stands for. The first argument is the first half of a
surrogate pair when its escape is what was read last: the second half must
follow at once.
-/
def unescapeAfter? : Option Nat → Bytes → Option Bytes
  | none, [] => some []
  | none, b :: bs =>
    if b = 92 then
      match bs with
      | 117 :: h₁ :: h₂ :: h₃ :: h₄ :: bs => do
        let unit ← codeUnit? h₁ h₂ h₃ h₄
        if isHighSurrogate unit then unescapeAfter? (some unit) bs
        else if isLowSurrogate unit then none
        else (unescapeAfter? none bs).map (String.utf8EncodeChar (Char.ofNat unit) ++ ·)
      | e :: bs => do
        let b ← ofShortEscape? e
        (unescapeAfter? none bs).map (b :: ·)
      | [] => none
    else (unescapeAfter? none bs).map (b :: ·)
  | some high, 92 :: 117 :: h₁ :: h₂ :: h₃ :: h₄ :: bs => do
    let unit ← codeUnit? h₁ h₂ h₃ h₄
    if isLowSurrogate unit then
      (unescapeAfter? none bs).map (String.utf8EncodeChar (ofSurrogates high unit) ++ ·)
    else none
  | some _, _ => none

/-- The bytes that a whole lexeme stands for. -/
def unescape? (lexeme : Bytes) : Option Bytes :=
  unescapeAfter? none lexeme

/-- The string that a lexeme denotes, if it denotes one. -/
def text? (lexeme : Bytes) : Option String :=
  (unescape? lexeme).bind Bytes.text?

/-! ## Reading back -/

theorem hexDigit?_hexDigit {n : Nat} (h : n < 16) :
    Bytes.hexDigit? (Bytes.hexDigit n) = some n := by
  have : ∀ n : Fin 16, Bytes.hexDigit? (Bytes.hexDigit n) = some n.val := by decide
  exact this ⟨n, h⟩

theorem utf8EncodeChar_ofNat_toNat {b : UInt8} (h : b.toNat < 32) :
    String.utf8EncodeChar (Char.ofNat b.toNat) = [b] := by
  have hv : (Char.ofNat b.toNat).val.toNat = b.toNat := by
    rw [Char.ofNat, dif_pos (Or.inl (by omega))]
    rfl
  rw [String.utf8EncodeChar]
  simp only [hv]
  rw [if_pos (by omega), UInt8.ofNat_toNat]

theorem unescapeAfter?_cons {b : UInt8} (h : b ≠ 92) (bs : Bytes) :
    unescapeAfter? none (b :: bs) = (unescapeAfter? none bs).map (b :: ·) := by
  rw [unescapeAfter?.eq_def]
  simp [h]

theorem unescapeAfter?_short {e b : UInt8} (he : e ≠ 117) (h : ofShortEscape? e = some b)
    (bs : Bytes) :
    unescapeAfter? none (92 :: e :: bs) = (unescapeAfter? none bs).map (b :: ·) := by
  rw [unescapeAfter?.eq_def]
  simp [h, he]

theorem unescape?_escapeByte_append (b : UInt8) (bs : Bytes) :
    unescape? (escapeByte b ++ bs) = (unescape? bs).map (b :: ·) := by
  unfold unescape? escapeByte
  by_cases h₁ : b = 34
  · subst h₁; exact unescapeAfter?_short (by decide) (by decide) bs
  by_cases h₂ : b = 92
  · subst h₂; exact unescapeAfter?_short (by decide) (by decide) bs
  by_cases h₃ : b = 8
  · subst h₃; exact unescapeAfter?_short (by decide) (by decide) bs
  by_cases h₄ : b = 9
  · subst h₄; exact unescapeAfter?_short (by decide) (by decide) bs
  by_cases h₅ : b = 10
  · subst h₅; exact unescapeAfter?_short (by decide) (by decide) bs
  by_cases h₆ : b = 12
  · subst h₆; exact unescapeAfter?_short (by decide) (by decide) bs
  by_cases h₇ : b = 13
  · subst h₇; exact unescapeAfter?_short (by decide) (by decide) bs
  rw [if_neg h₁, if_neg h₂, if_neg h₃, if_neg h₄, if_neg h₅, if_neg h₆, if_neg h₇]
  by_cases h : b < 32
  · have hb : b.toNat < 32 := h
    have hu : codeUnit? 48 48 (Bytes.hexDigit (b.toNat / 16)) (Bytes.hexDigit (b.toNat % 16)) =
        some b.toNat := by
      have h₀ : Bytes.hexDigit? 48 = some 0 := by decide
      simp only [codeUnit?, h₀, hexDigit?_hexDigit (show b.toNat / 16 < 16 by omega),
        hexDigit?_hexDigit (Nat.mod_lt _ (show 16 > 0 by omega)), Option.bind_eq_bind,
        Option.bind_some, Option.pure_def, Option.some.injEq]
      omega
    have hh : isHighSurrogate b.toNat = false := by
      simp [isHighSurrogate]; omega
    have hl : isLowSurrogate b.toNat = false := by
      simp [isLowSurrogate]; omega
    rw [if_pos h]
    simp [unescapeAfter?, hu, hh, hl, utf8EncodeChar_ofNat_toNat hb]
  · rw [if_neg h]
    exact unescapeAfter?_cons h₂ bs

theorem unescape?_flatMap_escapeByte (bs : Bytes) :
    unescape? (bs.flatMap escapeByte) = some bs := by
  induction bs with
  | nil => rfl
  | cons b bs ih => rw [List.flatMap_cons, unescape?_escapeByte_append, ih, Option.map_some]

theorem text?_lexeme (s : String) : text? (lexeme s) = some s := by
  rw [text?, lexeme, unescape?_flatMap_escapeByte]
  exact Bytes.text?_ofString s

end IngestCoordinator.Json
