-- SUMMARY: Byte strings, their reading as UTF-8 text, and the ASCII letters used to write them.

/-!
# Byte strings

What is stored under a key and what travels as text are both lists of bytes. A
`String` is its UTF-8 encoding; the way back is partial, because not every list
of bytes is the encoding of a string. Main statement: `text?_ofString`, writing
a string and reading it again gives the string.
-/

namespace IngestCoordinator

/-- A byte string. -/
abbrev Bytes := List UInt8

namespace Bytes

/-- The UTF-8 encoding of a string. -/
def ofString (s : String) : Bytes :=
  s.toUTF8.data.toList

/-- The string whose UTF-8 encoding the bytes are, if there is one. -/
def text? (bs : Bytes) : Option String :=
  String.fromUTF8? ⟨bs.toArray⟩

theorem text?_ofString (s : String) : (ofString s).text? = some s := by
  unfold text? ofString String.fromUTF8?
  rw [String.toUTF8_eq_toByteArray, Array.toArray_toList]
  exact dif_pos s.isValidUTF8

/-- The byte as an ASCII letter; bytes above 127 give letters no rule mentions. -/
abbrev letter (b : UInt8) : Char :=
  Char.ofUInt8 b

/-- The ASCII decimal digits. -/
def isDigit (b : UInt8) : Bool :=
  48 ≤ b && b ≤ 57

/-- The value of a hexadecimal digit of either case. -/
def hexDigit? (b : UInt8) : Option Nat :=
  if 48 ≤ b && b ≤ 57 then some (b.toNat - 48)
  else if 97 ≤ b && b ≤ 102 then some (b.toNat - 87)
  else if 65 ≤ b && b ≤ 70 then some (b.toNat - 55)
  else none

/-- The lower-case hexadecimal digit of a value below sixteen. -/
def hexDigit (n : Nat) : UInt8 :=
  if n < 10 then UInt8.ofNat (48 + n) else UInt8.ofNat (87 + n)

end Bytes

end IngestCoordinator
