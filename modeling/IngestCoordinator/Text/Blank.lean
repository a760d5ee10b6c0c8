-- SUMMARY: Blanks: the characters of the White_Space property, and texts without them at the ends.

/-!
# Blanks

The characters that Unicode counts as white space, spaces and ends of lines alike.
-/

namespace IngestCoordinator.Text

/-- A character of the White_Space property. -/
def isBlank (c : Char) : Bool :=
  (0x09 ≤ c.toNat && c.toNat ≤ 0x0D) || (0x2000 ≤ c.toNat && c.toNat ≤ 0x200A) ||
    [0x20, 0x85, 0xA0, 0x1680, 0x2028, 0x2029, 0x202F, 0x205F, 0x3000].contains c.toNat

/-- A text without the blanks at its ends. -/
def trim (text : List Char) : List Char :=
  ((text.dropWhile isBlank).reverse.dropWhile isBlank).reverse

end IngestCoordinator.Text
