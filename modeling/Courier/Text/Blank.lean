/-!
# Blank characters

What counts as blank space in a text: the characters with the Unicode
property White_Space. Core's own class `Char.isWhitespace` knows four ASCII
characters only, so the property is written out here, as ranges of code
points. Everything that trims or tests for emptiness in this library goes
through it: payloads before they are framed, lines of a source, parameters of
a sink.
-/

namespace Courier.Text

/-- **The property White_Space**, as inclusive ranges of code points. -/
def blankRanges : List (Nat × Nat) :=
  [(0x09, 0x0D), (0x20, 0x20), (0x85, 0x85), (0xA0, 0xA0), (0x1680, 0x1680),
   (0x2000, 0x200A), (0x2028, 0x2029), (0x202F, 0x202F), (0x205F, 0x205F),
   (0x3000, 0x3000)]

/-- **A blank character** lies in one of the ranges of White_Space. -/
def isBlank (c : Char) : Bool :=
  blankRanges.any fun (low, high) => low ≤ c.toNat && c.toNat ≤ high

/-- A text without the blank characters it ends in. -/
def trimEnd (s : List Char) : List Char :=
  (s.reverse.dropWhile isBlank).reverse

/-- **An empty line to the eye**: a text of blank characters only. -/
def allBlank (s : List Char) : Bool :=
  s.all isBlank

end Courier.Text
