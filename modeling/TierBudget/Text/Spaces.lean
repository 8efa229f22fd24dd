import TierBudget.Text.Ranges
/-!
# Spaces

The characters that are blank in any script, line breaks among them, and texts without them at their
ends.
-/

namespace TierBudget.Text

/-- Blank characters. -/
def spaceRanges : Ranges :=
  [(0x09, 0x0d), (0x20, 0x20), (0x85, 0x85), (0xa0, 0xa0), (0x1680, 0x1680), (0x2000, 0x200a),
    (0x2028, 0x2029), (0x202f, 0x202f), (0x205f, 0x205f), (0x3000, 0x3000)]

/-- Whether a character is blank. -/
def isSpace (c : Char) : Bool := spaceRanges.hold c

/-- The text without blanks at its end. -/
def trimEnd (cs : List Char) : List Char := (cs.reverse.dropWhile isSpace).reverse

/-- The text without blanks at its ends. -/
def trim (cs : List Char) : List Char := trimEnd (cs.dropWhile isSpace)

end TierBudget.Text
