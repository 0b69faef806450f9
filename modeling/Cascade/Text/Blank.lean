-- SUMMARY: White space: the characters that separate tokens and that are trimmed from the ends of a text.

/-! # Blanks

Two classes of characters. A **space** has the white-space property. A
**blank** is a space or one of the four information separators U+001C to
U+001F. Expressions are cut at blanks and settings trimmed of them; a written
number may have spaces around it, but no separators. -/

namespace Cascade.Text

/-- The ranges of code points with the white-space property, both ends
    included. -/
def spaceRanges : List (Nat × Nat) :=
  [ (0x09, 0x0d), (0x20, 0x20), (0x85, 0x85), (0xa0, 0xa0), (0x1680, 0x1680),
    (0x2000, 0x200a), (0x2028, 0x2029), (0x202f, 0x202f), (0x205f, 0x205f),
    (0x3000, 0x3000) ]

def isSpace (c : Char) : Bool :=
  spaceRanges.any fun (first, last) => first ≤ c.toNat && c.toNat ≤ last

/-- Whether a character is a space or an information separator. -/
def isBlank (c : Char) : Bool :=
  isSpace c || (0x1c ≤ c.toNat && c.toNat ≤ 0x1f)

/-- A text without the characters of a class at either end. -/
def trim (p : Char → Bool) (cs : List Char) : List Char :=
  ((cs.dropWhile p).reverse.dropWhile p).reverse

end Cascade.Text
