import TierBudget.Text.Emoji
import TierBudget.Text.Marks
import TierBudget.Text.Wide
/-!
# The width of a text

How many columns of a terminal a line of text takes (`width`). Most characters take one column,
wide ones two and marks none, but some depend on what follows: a selector turns a character into a
pictograph or back, a joiner merges pictographs, and letters of some scripts merge into one shape.

A line is therefore measured from its end. `Onset` is what the text after a point begins with, and
`place` gives the columns that a character adds in front of it and the new beginning.
-/

namespace TierBudget.Text

/-! ## Single characters -/

/-- Characters that are left out where they are not understood, besides marks. -/
def ignorableRanges : Ranges :=
  [
    (0xad, 0xad), (0x61c, 0x61c), (0x115f, 0x1160), (0x180e, 0x180e), (0x200b, 0x200b),
    (0x200d, 0x200f), (0x202a, 0x202e), (0x2060, 0x206f), (0x3164, 0x3164), (0xfeff, 0xfeff),
    (0xffa0, 0xffa0), (0xfff0, 0xfff8), (0x1bca0, 0x1bca3), (0x1d173, 0x1d17a), (0xe0000, 0xe0fff)]

/-- Signs and inner letters of syllables that are drawn into their neighbours. -/
def mergingRanges : Ranges :=
  [
    (0x605, 0x605), (0x70f, 0x70f), (0x890, 0x891), (0x8e2, 0x8e2), (0xd4e, 0xd4e),
    (0x1161, 0x11ff), (0xa8fa, 0xa8fa), (0xd7b0, 0xd7c6), (0xd7cb, 0xd7fb), (0x111c2, 0x111c3),
    (0x113d1, 0x113d1), (0x1193f, 0x1193f), (0x11941, 0x11941), (0x11a3a, 0x11a3a),
    (0x11a84, 0x11a89), (0x11d46, 0x11d46), (0x11f02, 0x11f02)]

/-- Whether a character takes no column of its own. -/
def isZeroWidth (c : Char) : Bool :=
  markRanges.hold c || (0x200c ≤ c.toNat && c.toNat ≤ 0x200d) || ignorableRanges.hold c ||
    mergingRanges.hold c

/-- The columns of a character by itself. Four characters are exceptions. -/
def charWidth (c : Char) : Nat :=
  if c = '\u115f' || c = '\u17a4' then 2
  else if c = '\u17d8' then 3
  else if c = '\u2d7f' then 1
  else if isZeroWidth c then 0
  else if wideRanges.hold c then 2
  else 1

/-- The joiner, which merges pictographs and letters. -/
def joiner : Char := '\u200d'

/-- Characters that choose the form of the one before them. -/
inductive Selector where
  | picture
  | writing
  /-- Of quotation marks: as wide as an ideograph. -/
  | wideQuote
deriving DecidableEq

/-- The selector that a character is. -/
def Selector.ofChar? (c : Char) : Option Selector :=
  if c = '\ufe0f' then some .picture
  else if c = '\ufe0e' then some .writing
  else if c = '\ufe01' then some .wideQuote
  else none

/-- Whether a character is a rounded quotation mark. -/
def isQuotationMark (c : Char) : Bool :=
  c = '\u2018' || c = '\u2019' || c = '\u201c' || c = '\u201d'

/-! ## Merging letters -/

/-- The letters that can merge with what stands before them. -/
inductive Ligature where
  | alef
  | lamed
  | ya
  /-- The letter ya after its vowel sign and a joiner. -/
  | yaAfterVowel
  | tifinagh
  /-- A Tifinagh letter after the sign that joins it to the one before. -/
  | tifinaghJoined
  | lisuTone
  | orkhonI
  | khmer
deriving DecidableEq

/-- Letters alef with their marks. -/
def alefRanges : Ranges :=
  [(0x622, 0x623), (0x625, 0x625), (0x627, 0x627), (0x671, 0x673), (0x675, 0x675),
    (0x773, 0x774), (0x870, 0x882)]

/-- Letters lam with their marks. -/
def lamRanges : Ranges :=
  [(0x644, 0x644), (0x6b5, 0x6b8), (0x76a, 0x76a), (0x8a6, 0x8a6), (0x8c7, 0x8c7)]

/-- Khmer letters that can stand below another. -/
def khmerRanges : Ranges :=
  [(0x1780, 0x1782), (0x1784, 0x1787), (0x1789, 0x178c), (0x178e, 0x1793), (0x1795, 0x1798),
    (0x179b, 0x179d), (0x17a0, 0x17a0), (0x17a2, 0x17a2), (0x17a7, 0x17a7), (0x17ab, 0x17ac),
    (0x17af, 0x17af)]

/-- Tifinagh letters. -/
def tifinaghRanges : Ranges := [(0x2d31, 0x2d65), (0x2d6f, 0x2d6f)]

/-- The way in which a letter can merge. -/
def Ligature.ofChar? (c : Char) : Option Ligature :=
  if alefRanges.hold c then some .alef
  else if c = '\u05dc' then some .lamed
  else if c = '\u1a10' then some .ya
  else if tifinaghRanges.hold c then some .tifinagh
  else if c = '\ua4fc' || c = '\ua4fd' then some .lisuTone
  else if c.toNat = 0x10c03 then some .orkhonI
  else if khmerRanges.hold c then some .khmer
  else none

/-- Characters without a column that keep letters from merging across them. -/
def partingRanges : Ranges :=
  [
    (0x605, 0x605), (0x890, 0x891), (0x8e2, 0x8e2), (0x9be, 0x9be), (0x9d7, 0x9d7), (0xb3e, 0xb3e),
    (0xb57, 0xb57), (0xbbe, 0xbbe), (0xbd7, 0xbd7), (0xcc0, 0xcc0), (0xcc2, 0xcc2), (0xcc7, 0xcc8),
    (0xcca, 0xccb), (0xcd5, 0xcd6), (0xd3e, 0xd3e), (0xd4e, 0xd4e), (0xd57, 0xd57), (0xdcf, 0xdcf),
    (0xddf, 0xddf), (0x115f, 0x11ff), (0x1715, 0x1715), (0x1734, 0x1734), (0x180e, 0x180e),
    (0x1b35, 0x1b35), (0x1b3b, 0x1b3b), (0x1b3d, 0x1b3d), (0x1b43, 0x1b44), (0x1baa, 0x1baa),
    (0x1bf2, 0x1bf3), (0x200c, 0x200d), (0x2065, 0x2069), (0x302e, 0x302f), (0x3164, 0x3164),
    (0xa8fa, 0xa8fa), (0xa953, 0xa953), (0xa9c0, 0xa9c0), (0xd7b0, 0xd7c6), (0xd7cb, 0xd7fb),
    (0xff9e, 0xffa0), (0xfff0, 0xfff8), (0x111c0, 0x111c0), (0x111c2, 0x111c3), (0x11235, 0x11235),
    (0x1133e, 0x1133e), (0x1134d, 0x1134d), (0x11357, 0x11357), (0x113d1, 0x113d1),
    (0x114b0, 0x114b0), (0x114bd, 0x114bd), (0x115af, 0x115af), (0x116b6, 0x116b6),
    (0x11930, 0x11930), (0x1193d, 0x1193d), (0x1193f, 0x1193f), (0x11941, 0x11941),
    (0x11a3a, 0x11a3a), (0x11a84, 0x11a89), (0x11d46, 0x11d46), (0x11f02, 0x11f02),
    (0x11f41, 0x11f41), (0x16ff0, 0x16ff1), (0x1d165, 0x1d166), (0x1d16d, 0x1d172),
    (0xe0000, 0xe0000), (0xe0002, 0xe001f), (0xe0080, 0xe00ff), (0xe01f0, 0xe0fff)]

/-- Whether lam and alef merge across a character. -/
def isTransparent (c : Char) : Bool := isZeroWidth c && !partingRanges.hold c

/-- Marks across which all letters that can merge do so. -/
def seeThroughRanges : Ranges :=
  [(0x34f, 0x34f), (0x17b4, 0x17b5), (0x180b, 0x180d), (0x180f, 0x180f), (0xfe00, 0xfe0f),
    (0xe0100, 0xe01ef)]

/-! ## What a text begins with -/

/-- What a text begins with, as far as the character before it may depend on that. -/
inductive Onset where
  /-- Nothing that matters. -/
  | other
  /-- A selector. -/
  | selected (s : Selector)
  /-- A pictograph. -/
  | picture
  /-- A skin tone. -/
  | tone
  /-- One letter of a flag. -/
  | flagLetter
  /-- Several letters of flags. -/
  | flagLetters
  /-- A joiner and a pictograph, perhaps with the emoji selector in front. -/
  | joined (selected : Bool)
  /-- A keycap mark in front of a joiner and a pictograph, perhaps with the emoji selector. -/
  | joinedKeycap (selected : Bool)
  /-- One letter of a flag in front of a joiner and a pictograph. -/
  | joinedFlagLetter
  /-- An even number of letters of flags in front of a joiner and a pictograph. -/
  | joinedEven
  /-- An odd number of letters of flags, three or more, in front of a joiner and a pictograph. -/
  | joinedOdd
  /-- Tags of a flag up to the last, in front of a joiner and a pictograph: how many letters, or how
  many digits. -/
  | tagLetters (n : Nat)
  | tagDigits (n : Nat)
  /-- A letter that can merge, perhaps with a joiner and a selector in front. -/
  | ligature (l : Ligature) (joined : Bool) (selector : Option Selector)
  /-- The Kirat Rai vowel sign e. -/
  | signE
  /-- The Kirat Rai vowel sign ai. -/
  | signAi
deriving DecidableEq

namespace Onset

/-- The beginning with a selector put in front. -/
def select : Onset → Selector → Onset
  | .ligature l j _, s => .ligature l j (some s)
  | .joined _, .picture => .joined true
  | .joinedKeycap _, .picture => .joinedKeycap true
  | _, s => .selected s

/-- The selector at the beginning. -/
def selector? : Onset → Option Selector
  | .selected s => some s
  | .joined true | .joinedKeycap true => some .picture
  | .ligature _ _ s => s
  | _ => none

/-- The beginning after a selector that has no effect. -/
def unselect : Onset → Onset
  | .selected _ | .joined true | .joinedKeycap true => .other
  | .ligature l j _ => .ligature l j none
  | o => o

/-- Whether a joiner and a pictograph follow a selector. -/
def isJoined : Onset → Bool
  | .joined _ | .joinedKeycap _ => true
  | _ => false

end Onset

/-- What a text begins with that starts with the given character. -/
def Onset.ofChar (c : Char) : Onset :=
  match Selector.ofChar? c, Ligature.ofChar? c with
  | some s, _ => .selected s
  | none, some l => .ligature l false none
  | none, none =>
    if isTone c then .tone
    else if isFlagLetter c then .flagLetter
    else if isPictograph c then .picture
    else if c.toNat = 0x16d67 then .signE
    else if c.toNat = 0x16d68 then .signAi
    else .other

/-! ## Placing a character -/

/-- A character that does not depend on what follows. -/
def placeAlone (c : Char) : Int × Onset := (charWidth c, .ofChar c)

/-- A character in front of a letter that can merge. -/
def placeBeforeLigature (c : Char) (l : Ligature) (joined : Bool) : Int × Onset :=
  if c = joiner then (0, .ligature l true none)
  else if seeThroughRanges.hold c then (0, .ligature l joined none)
  else match l with
    | .alef =>
      if lamRanges.hold c then (0, .other)
      else if isTransparent c then (0, .ligature l joined none)
      else placeAlone c
    | .lamed => if joined && c = '\u05d0' then (0, .other) else placeAlone c
    | .ya =>
      if joined && c = '\u1a17' then (0, .ligature .yaAfterVowel false none) else placeAlone c
    | .yaAfterVowel => if !joined && c = '\u1a15' then (0, .other) else placeAlone c
    | .tifinagh =>
      if c = '\u2d7f' then (1, .ligature .tifinaghJoined false none)
      else if joined && tifinaghRanges.hold c then (0, .other)
      else placeAlone c
    | .tifinaghJoined => if !joined && tifinaghRanges.hold c then (-1, .other) else placeAlone c
    | .lisuTone => if 0xa4f8 ≤ c.toNat && c.toNat ≤ 0xa4fb then (0, .other) else placeAlone c
    | .orkhonI => if joined && c.toNat = 0x10c32 then (0, .other) else placeAlone c
    | .khmer => if c = '\u17d2' then (-1, .other) else placeAlone c

/-- A character in front of a joiner and a pictograph. -/
def placeBeforeJoined (c : Char) : Int × Onset :=
  if c = '\u20e3' then (0, .joinedKeycap false)
  else if isFlagLetter c then (1, .joinedFlagLetter)
  else if isTone c then (0, .tone)
  else if c.toNat = 0xe007f then (0, .tagLetters 0)
  else if isPictograph c then (0, .picture)
  else placeAlone c

/-- Whether a character is a letter in the name of a flag. -/
def isTagLetter (c : Char) : Bool := 0xe0061 ≤ c.toNat && c.toNat ≤ 0xe007a

/-- Whether a character is a digit in the name of a flag. -/
def isTagDigit (c : Char) : Bool := 0xe0030 ≤ c.toNat && c.toNat ≤ 0xe0039

/-- The black flag, which stands in front of the name of a flag. -/
def isBlackFlag (c : Char) : Bool := c.toNat = 0x1f3f4

/-- A character in front of a text whose beginning has no selector. -/
def placeBefore (c : Char) : Onset → Int × Onset
  | .ligature l joined _ => placeBeforeLigature c l joined
  | .tone =>
    if takesTone c then (0, .picture) else if c = joiner then (0, .joined false) else placeAlone c
  | .picture => if c = joiner then (0, .joined false) else placeAlone c
  | .flagLetter => if isFlagLetter c then (1, .flagLetters) else placeAlone c
  | .flagLetters =>
    if isFlagLetter c then (1, .flagLetters)
    else if c = joiner then (0, .joined false)
    else placeAlone c
  | .joined _ => placeBeforeJoined c
  | .joinedFlagLetter | .joinedOdd => if isFlagLetter c then (-1, .joinedEven) else placeAlone c
  | .joinedEven =>
    if isFlagLetter c then (3, .joinedOdd)
    else if c = joiner then (0, .joined false)
    else placeAlone c
  | .tagLetters n =>
    if isTagLetter c && n < 6 then (0, .tagLetters (n + 1))
    else if isTagDigit c && n < 5 then (0, .tagDigits 1)
    else if isBlackFlag c && 3 ≤ n then (0, .picture)
    else placeAlone c
  | .tagDigits n =>
    if isTagDigit c && n < 3 then (0, .tagDigits (n + 1))
    else if isBlackFlag c && n = 3 then (0, .picture)
    else placeAlone c
  | .signE =>
    if c.toNat = 0x16d63 || c.toNat = 0x16d69 then (0, .other)
    else if c.toNat = 0x16d67 then (0, .signAi)
    else if c.toNat = 0x16d68 then (1, .signE)
    else placeAlone c
  | .signAi => if c.toNat = 0x16d63 then (0, .other) else placeAlone c
  | .other | .selected _ | .joinedKeycap _ => placeAlone c

/-- The columns that a character adds in front of a text, and what the text then begins with. -/
def place (c : Char) (after : Onset) : Int × Onset :=
  if after.selector? = some .picture && hasPictograph c then
    (if after.isJoined then 0 else 2, .picture)
  else if c ≤ '\u00a0' then (1, .other)
  else
    match Selector.ofChar? c with
    | some s => (0, after.unselect.select s)
    | none =>
      if after.selector? = some .writing && hasNarrowForm c then (1, .other)
      else if after.selector? = some .wideQuote && isQuotationMark c then (2, .other)
      else placeBefore c after.unselect

/-- The columns of a line and what it begins with. -/
def measure : List Char → Int × Onset
  | [] => (0, .other)
  | c :: r =>
    let (n, after) := measure r
    let (k, onset) := place c after
    (n + k, onset)

/-- The columns of a line. -/
def width (cs : List Char) : Nat := (measure cs).1.toNat

end TierBudget.Text
