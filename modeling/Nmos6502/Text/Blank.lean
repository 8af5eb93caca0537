/-!
# Blank characters

Hexadecimal text may be broken up by any character with the White_Space property of Unicode: the
ASCII blanks, the next-line control, the no-break spaces and the spaces of typography. A zero-width
space and the byte order mark do not have the property and are not blank.

## Main definitions

* `blankRanges` — the twenty-five characters, as ranges of code points
* `isBlank` — the test
* `trimBlanks` — a text without the blanks at its two ends
-/

namespace Nmos6502.Text

/-- The White_Space property: first and last code point of each range, in order. -/
def blankRanges : List (Nat × Nat) :=
  [(0x9, 0xD), (0x20, 0x20), (0x85, 0x85), (0xA0, 0xA0), (0x1680, 0x1680), (0x2000, 0x200A),
    (0x2028, 0x2029), (0x202F, 0x202F), (0x205F, 0x205F), (0x3000, 0x3000)]

/-- Whether a code point lies in one of the ranges. -/
def inRanges (ranges : List (Nat × Nat)) (c : Char) : Bool :=
  ranges.any fun range => range.1 ≤ c.toNat && c.toNat ≤ range.2

/-- Whether a character is white space. -/
def isBlank (c : Char) : Bool := inRanges blankRanges c

/-- A text without the blanks at its two ends. -/
def trimBlanks (text : List Char) : List Char :=
  ((text.dropWhile isBlank).reverse.dropWhile isBlank).reverse

end Nmos6502.Text
