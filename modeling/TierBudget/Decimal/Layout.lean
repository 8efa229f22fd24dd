import TierBudget.Decimal.Shortest
/-!
# Text of doubles

A `Layout` says how the shortest digits of a double are set. Three are in use: `Layout.json` for
JSON texts, `Layout.plain` for messages and `Layout.scientific` for the overview of the settings.
`places` writes a double with a fixed number of decimal places instead.
-/

namespace TierBudget

/-- How the digits of a number are written. -/
structure Layout where
  /-- Whether a number `0.d₁d₂… · 10 ^ k` is written without an exponent. -/
  positional : Int → Bool
  /-- Whether a whole number written without an exponent ends in `.0`. -/
  pointZero : Bool
  /-- Whether a positive exponent carries a plus sign. -/
  plus : Bool
  /-- Which of two equally short and equally near decimals is written. -/
  tie : Tie

namespace Layout

/-- JSON numbers are positional from `0.00001` to below `10 ^ 16`, and always show a point or an
exponent. -/
def json : Layout := ⟨fun k => -5 < k && k ≤ 16, true, true, .even⟩

/-- Messages never use an exponent, and whole numbers show no point. -/
def plain : Layout := ⟨fun _ => true, false, false, .up⟩

/-- One digit before the point and always an exponent. -/
def scientific : Layout := ⟨fun _ => false, false, false, .up⟩

/-- The whole number `n` with its sign. -/
def exponentText (plus : Bool) (n : Int) : List Char :=
  if n < 0 then '-' :: digitsOf n.natAbs
  else if plus then '+' :: digitsOf n.natAbs else digitsOf n.natAbs

/-- The number `0.d₁d₂… · 10 ^ k`. -/
def writeDigits (l : Layout) (ds : List Char) (k : Int) : List Char :=
  if l.positional k then
    if k ≤ 0 then '0' :: '.' :: List.replicate (-k).toNat '0' ++ ds
    else if (ds.length : Int) ≤ k then
      ds ++ List.replicate (k.toNat - ds.length) '0' ++ (if l.pointZero then ['.', '0'] else [])
    else ds.take k.toNat ++ '.' :: ds.drop k.toNat
  else
    let mantissa := match ds with
      | d :: e :: r => d :: '.' :: e :: r
      | _ => ds
    mantissa ++ 'e' :: exponentText l.plus (k - 1)

/-- A finite double. -/
def writeFinite (l : Layout) (x : Float) : List Char :=
  let d := shortest l.tie x
  let text := l.writeDigits d.digits d.point
  if isNegative x then '-' :: text else text

end Layout

/-- The name of a double that is not finite. -/
def nonFiniteName (x : Float) : String :=
  if x.isNaN then "NaN" else if isNegative x then "-inf" else "inf"

/-- Any double in the given layout, NaN and the infinities by name. -/
def Layout.write (l : Layout) (x : Float) : String :=
  if x.isFinite then .ofList (l.writeFinite x) else nonFiniteName x

/-- A double with `n` decimal places, rounded from its exact value, a half going to the even
neighbour. The sign stays where all digits are zero. -/
def places (n : Nat) (x : Float) : String :=
  if x.isFinite then
    let m := Magnitude.ofFloat x
    let unit := Nat.pow 10 n
    let scaled := roundDiv .even (m.num * unit) m.den
    let fraction := digitsOf (scaled % unit)
    let text := digitsOf (scaled / unit) ++
      (if n = 0 then [] else '.' :: List.replicate (n - fraction.length) '0' ++ fraction)
    .ofList (if isNegative x then '-' :: text else text)
  else nonFiniteName x

end TierBudget
