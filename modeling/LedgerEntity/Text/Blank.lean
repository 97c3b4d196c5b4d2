/-!
# White space

The characters with the Unicode property `White_Space`, and the removal of a
run of them from both ends of a text.

The property has twenty-five characters, in ten ranges.  It is wider than the
ASCII blanks: it holds the no-break spaces and the ideographic space, and it
does not hold the zero-width space.
-/

namespace LedgerEntity
namespace Blank

/-- The ranges of `White_Space`, both ends included. -/
def ranges : List (Nat × Nat) :=
  [ (0x9, 0xd), (0x20, 0x20), (0x85, 0x85), (0xa0, 0xa0), (0x1680, 0x1680),
    (0x2000, 0x200a), (0x2028, 0x2029), (0x202f, 0x202f), (0x205f, 0x205f),
    (0x3000, 0x3000) ]

/-- A character with the property `White_Space`. -/
def isBlank
    (c : Char) :
    Bool :=
  ranges.any fun range =>
    decide (range.1 ≤ c.toNat) && decide (c.toNat ≤ range.2)

/-- A list of characters without the blanks at its two ends. -/
def trim
    (cs : List Char) :
    List Char :=
  ((cs.dropWhile isBlank).reverse.dropWhile isBlank).reverse

end Blank
end LedgerEntity
