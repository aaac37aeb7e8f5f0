/-
Blanks: the code points that only separate.

They are the characters with the Unicode property White_Space and the four
information separators U+001C to U+001F.
-/
import GestureStore.Text

namespace GestureStore

/-- The ranges of the blanks, both ends included. -/
def blankRanges : List (Nat × Nat) :=
  [(0x9, 0xD), (0x1C, 0x20), (0x85, 0x85), (0xA0, 0xA0), (0x1680, 0x1680), (0x2000, 0x200A),
    (0x2028, 0x2029), (0x202F, 0x202F), (0x205F, 0x205F), (0x3000, 0x3000)]

/-- The code point is a blank. -/
def CodePoint.isBlank (p : CodePoint) : Bool :=
  blankRanges.any fun r => r.1 ≤ p.val && p.val ≤ r.2

/-- The code point is one of the six blanks of ASCII. -/
def CodePoint.isAsciiBlank (p : CodePoint) : Bool :=
  p.val == 0x20 || (0x9 ≤ p.val && p.val ≤ 0xD)

namespace Text

/-- Nothing in the text is more than a blank. -/
def isBlank (t : Text) : Bool := t.all CodePoint.isBlank

/-- The text without the code points of a class at its two ends. -/
def trim (outer : CodePoint → Bool) (t : Text) : Text :=
  ((t.dropWhile outer).reverse.dropWhile outer).reverse

end Text

end GestureStore
