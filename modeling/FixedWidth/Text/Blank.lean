/-!
# Blanks

The characters of Unicode's White_Space property, and trimming by them. The property is wider than
the blanks of ASCII and stricter than "looks empty": a byte order mark or a zero-width space is no
blank.

In the program: `trim`, as `from_str` calls it on both halves of a literal.
-/

namespace FixedWidth.Text

/-- The code points of White_Space, as ranges with both ends included. -/
def blankRanges : List (Nat × Nat) :=
  [(0x9, 0xd), (0x20, 0x20), (0x85, 0x85), (0xa0, 0xa0), (0x1680, 0x1680), (0x2000, 0x200a),
    (0x2028, 0x2029), (0x202f, 0x202f), (0x205f, 0x205f), (0x3000, 0x3000)]

example : (blankRanges.map fun r => r.2 - r.1 + 1).sum = 25 := by decide

/-- Whether a character has the White_Space property. -/
def isBlank (c : Char) : Bool :=
  blankRanges.any fun r => r.1 ≤ c.toNat && c.toNat ≤ r.2

/-- The text without the blanks at its two ends. -/
def trim (text : List Char) : List Char :=
  ((text.dropWhile isBlank).reverse.dropWhile isBlank).reverse

end FixedWidth.Text
