import Phrasebook.Text.Basic

/-! # Blank characters

The white space of the command language: the blanks of ASCII, the four information separators,
and the characters that Unicode calls spaces, line separators or paragraph separators.

* `isBlank` — the class.
* `Text.strip` — a text without the characters of a class at its ends.
* `Text.isAllBlank` — nothing but blanks.
-/

namespace Phrasebook

def blankRanges : List (Nat × Nat) :=
  [(0x09, 0x0D), (0x1C, 0x20), (0x85, 0x85), (0xA0, 0xA0), (0x1680, 0x1680), (0x2000, 0x200A),
   (0x2028, 0x2029), (0x202F, 0x202F), (0x205F, 0x205F), (0x3000, 0x3000)]

/-- Whether a code point lies in one of the ranges, both ends included. -/
def inRanges (ranges : List (Nat × Nat)) (n : Nat) : Bool :=
  ranges.any fun (first, last) => first ≤ n && n ≤ last

/-- White space, line breaks included. -/
def isBlank (c : Char) : Bool := inRanges blankRanges c.toNat

namespace Text

def strip (margin : Char → Bool) (text : Text) : Text :=
  ((text.dropWhile margin).reverse.dropWhile margin).reverse

def isAllBlank (text : Text) : Bool := text.all isBlank

end Text

theorem isBlank_lineFeed : isBlank '\n' = true := by decide

end Phrasebook
