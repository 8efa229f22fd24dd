import TierBudget.Decimal.Basic
/-!
# Written numbers

`Numeral.scan` cuts the longest written number off a text, of the shape that every format here
shares: a sign, digits, a point with digits, an exponent. Which parts a format lets go missing is its
own decision, so a numeral keeps them apart. `readNat`, `readInt` and `readFloat` read whole words
in the notation of settings and arguments.
-/

namespace TierBudget

/-- The parts of a written number. -/
structure Numeral where
  sign : Option Char
  whole : List Char
  /-- The digits after the point, if there is a point. -/
  fraction : Option (List Char)
  /-- The sign and the digits of the exponent, if there is one. -/
  exponent : Option (Option Char × List Char)
deriving DecidableEq

namespace Numeral

/-- A sign in front of a text, and the rest. -/
def scanSign : List Char → Option Char × List Char
  | '-' :: r => (some '-', r)
  | '+' :: r => (some '+', r)
  | r => (none, r)

/-- The digits after a point in front of a text, and the rest. -/
def scanFraction : List Char → Option (List Char) × List Char
  | '.' :: r => (some (r.takeWhile Char.isDigit), r.dropWhile Char.isDigit)
  | r => (none, r)

/-- The sign and digits after an exponent mark in front of a text, and the rest. -/
def scanExponent : List Char → Option (Option Char × List Char) × List Char
  | c :: r =>
    if c = 'e' || c = 'E' then
      let (sign, r) := scanSign r
      (some (sign, r.takeWhile Char.isDigit), r.dropWhile Char.isDigit)
    else (none, c :: r)
  | [] => (none, [])

/-- The longest written number in front of a text, and the rest. -/
def scan (cs : List Char) : Numeral × List Char :=
  let (sign, cs) := scanSign cs
  let (whole, cs) := (cs.takeWhile Char.isDigit, cs.dropWhile Char.isDigit)
  let (fraction, cs) := scanFraction cs
  let (exponent, cs) := scanExponent cs
  (⟨sign, whole, fraction, exponent⟩, cs)

/-- Whether the number is below zero, or a negative zero. -/
def isNegative (n : Numeral) : Bool := n.sign == some '-'

/-- Whether there is neither a point nor an exponent. -/
def isInteger (n : Numeral) : Bool := n.fraction.isNone && n.exponent.isNone

/-- The value of the exponent. -/
def exponentValue (n : Numeral) : Int :=
  match n.exponent with
  | some (some '-', ds) => -(ofDigits ds)
  | some (_, ds) => ofDigits ds
  | none => 0

/-- The number without its sign. -/
def toDecimal (n : Numeral) : Decimal :=
  let fraction := n.fraction.getD []
  ⟨ofDigits (n.whole ++ fraction), n.exponentValue - fraction.length⟩

/-- The double nearest to the number. -/
def toFloat (n : Numeral) : Float := applySign n.isNegative n.toDecimal.toFloat

/-- The number, for one without point and exponent. -/
def toInt (n : Numeral) : Int := if n.isNegative then -(ofDigits n.whole) else ofDigits n.whole

/-- Whether the exponent, if there is one, has digits. -/
def hasExponentDigits (n : Numeral) : Bool :=
  match n.exponent with
  | some (_, []) => false
  | _ => true

end Numeral

/-- A word of digits, after an optional plus sign. -/
def readNat (s : String) : Option Nat :=
  match Numeral.scanSign s.toList with
  | (some '-', _) => none
  | (_, ds) => if ds ≠ [] && ds.all Char.isDigit then some (ofDigits ds) else none

/-- A word of digits, after an optional sign. -/
def readInt (s : String) : Option Int :=
  let (sign, ds) := Numeral.scanSign s.toList
  if ds ≠ [] && ds.all Char.isDigit then
    some (if sign = some '-' then -(ofDigits ds) else ofDigits ds)
  else none

/-- The lower-case form of the ASCII letters of a text. -/
def lowercase (s : String) : String := s.map Char.toLower

/-- A word that is a number or, in any case, `inf`, `infinity` or `nan`, after an optional sign. A
number has digits on one side of the point at least. -/
def readFloat (s : String) : Option Float :=
  let (sign, r) := Numeral.scanSign s.toList
  let word := lowercase (.ofList r)
  if word = "inf" || word = "infinity" then some (applySign (sign == some '-') (1 / 0))
  else if word = "nan" then some (applySign (sign == some '-') (0 / 0))
  else
    match Numeral.scan s.toList with
    | (n, []) =>
      if n.whole ++ n.fraction.getD [] ≠ [] && n.hasExponentDigits then some n.toFloat else none
    | _ => none

end TierBudget
