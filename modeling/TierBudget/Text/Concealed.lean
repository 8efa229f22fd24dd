import TierBudget.Text.Marks
import TierBudget.Text.Unassigned
/-!
# Characters that do not show

Code points that a quoted text spells out because they leave no mark of their own: controls, format
characters, blanks besides the space, private ones, fillers, marks that join the character before
them, and code points without a character (`unassignedRanges`). The two Katakana sound marks of half
width are the marks that stand for themselves.
-/

namespace TierBudget.Text

/-- Controls, format characters, line and paragraph breaks, blanks besides the space, private use. -/
def blankRanges : Ranges :=
  [
    (0x0, 0x1f), (0x7f, 0xa0), (0xad, 0xad), (0x600, 0x605), (0x61c, 0x61c), (0x6dd, 0x6dd),
    (0x70f, 0x70f), (0x890, 0x891), (0x8e2, 0x8e2), (0x1680, 0x1680), (0x180e, 0x180e),
    (0x2000, 0x200f), (0x2028, 0x202f), (0x205f, 0x2064), (0x2066, 0x206f), (0x3000, 0x3000),
    (0xe000, 0xf8ff), (0xfeff, 0xfeff), (0xfff9, 0xfffb), (0x110bd, 0x110bd), (0x110cd, 0x110cd),
    (0x13430, 0x1343f), (0x1bca0, 0x1bca3), (0x1d173, 0x1d17a), (0xe0001, 0xe0001),
    (0xe0020, 0xe007f), (0xf0000, 0xffffd), (0x100000, 0x10fffd)]

/-- Letters of Hangul without a shape. -/
def fillerRanges : Ranges := [(0x115f, 0x1160), (0x3164, 0x3164), (0xffa0, 0xffa0)]

/-- Marks that have a shape without the character before them. -/
def soundMarkRanges : Ranges := [(0xff9e, 0xff9f)]

/-- Whether a character leaves no mark of its own. -/
def isConcealed (c : Char) : Bool :=
  blankRanges.hold c || (markRanges.hold c && !soundMarkRanges.hold c) || fillerRanges.hold c ||
    unassignedRanges.hold c

end TierBudget.Text
