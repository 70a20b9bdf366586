import Fluxion.Text.CodeRanges

/-!
# Blank characters

The characters with the Unicode property `White_Space`, and trimming by them. The words of a
function are separated by a smaller set (`LexemeKind.ofChar`); this one decides which lines are
blank, which characters a function may contain besides its alphabet, and how a line is shown in
a report.
-/

namespace Fluxion

/-- The characters with the property `White_Space`. -/
def blankRanges : CodeRanges :=
  [(0x09, 0x0D), (0x20, 0x20), (0x85, 0x85), (0xA0, 0xA0), (0x1680, 0x1680), (0x2000, 0x200A),
    (0x2028, 0x2029), (0x202F, 0x202F), (0x205F, 0x205F), (0x3000, 0x3000)]

/-- Whether a character has the property `White_Space`. -/
def isBlank (c : Char) : Bool := blankRanges.covers c

/-- The characters without the blank ones at the end. -/
def trimBlankEnd (cs : List Char) : List Char := (cs.reverse.dropWhile isBlank).reverse

/-- The characters without the blank ones at both ends. -/
def trimBlank (cs : List Char) : List Char := trimBlankEnd (cs.dropWhile isBlank)

end Fluxion
