/-! # Ranges of code points

The character classes of this library are unions of closed ranges of code points, given in
increasing order. A character belongs to a class when one of the ranges holds its code point.
-/

namespace TreeQuery.Text

/-- Whether one of the closed ranges holds the code point of a character. -/
def inRanges (ranges : List (Nat × Nat)) (character : Char) : Bool :=
  ranges.any fun range => range.1 ≤ character.toNat && character.toNat ≤ range.2

end TreeQuery.Text
