import TierBudget.Toml.Text
/-!
# Numbers, booleans and dates of TOML

A value without quotes and brackets is a run of word characters, and `scalar?` says what it is.
-/

namespace TierBudget.Toml

/-- Whether a character may stand in a value without quotes. -/
def isWordChar (c : Char) : Bool := Path.isKeyChar c || c = '+' || c = '.' || c = ':'

/-- Whether every underscore stands between two digits. -/
def underscoresBetween (isDigit : Char → Bool) : List Char → Bool
  | a :: '_' :: b :: r => isDigit a && isDigit b && underscoresBetween isDigit (b :: r)
  | '_' :: _ => false
  | [_, '_'] => false
  | _ :: r => underscoresBetween isDigit r
  | [] => true

/-- The text without its underscores, if they all stand between digits. -/
def withoutUnderscores (isDigit : Char → Bool) (cs : List Char) : Option (List Char) :=
  if underscoresBetween isDigit cs then some (cs.filter (· ≠ '_')) else none

/-- The value of a digit below `base`. -/
def digitBelow? (base : Nat) (c : Char) : Option Nat := (Json.hexValue? c).filter (· < base)

/-- An integer of the digits after a base mark. -/
def based? (base : Nat) (cs : List Char) : Option Tree := do
  let ds ← withoutUnderscores (digitBelow? base · |>.isSome) cs
  if ds = [] then none
  let n ← ds.foldlM (fun n c => (digitBelow? base c).map (base * n + ·)) 0
  Tree.integer? n

/-- Whether the digits before the point are there, and start with a zero only if they are one. -/
def isWhole (ds : List Char) : Bool := ds != [] && (ds.head? != some '0' || ds == ['0'])

/-- A decimal integer, or a float that is not too large. -/
def decimal? (cs : List Char) : Option Tree := do
  let cs ← withoutUnderscores Char.isDigit cs
  match Numeral.scan cs with
  | (n, []) =>
    if !isWhole n.whole then none
    else if n.isInteger then Tree.integer? n.toInt
    else if n.fraction = some [] || !n.hasExponentDigits then none
    else Tree.finite? n.toFloat
  | _ => none

/-- An infinite number or NaN. -/
def special? (cs : List Char) : Option Tree :=
  match Numeral.scanSign cs with
  | (sign, ['i', 'n', 'f']) => some (.float (applySign (sign == some '-') (1 / 0)))
  | (sign, ['n', 'a', 'n']) => some (.float (applySign (sign == some '-') (0 / 0)))
  | _ => none

/-- The number that exactly `n` digits in front of a text write, and the rest. -/
def fixedDigits (n : Nat) (cs : List Char) : Option (Nat × List Char) :=
  let ds := cs.take n
  if ds.length = n && ds.all Char.isDigit then some (ofDigits ds, cs.drop n) else none

/-- The text after a character. -/
def expect (c : Char) : List Char → Option (List Char)
  | d :: r => if c = d then some r else none
  | [] => none

/-- How many days a month has. -/
def daysIn (year month : Nat) : Nat :=
  if month = 2 then
    if year % 4 = 0 && (year % 100 ≠ 0 || year % 400 = 0) then 29 else 28
  else if month = 4 || month = 6 || month = 9 || month = 11 then 30
  else 31

/-- The text after a date of the calendar. -/
def skipDate (cs : List Char) : Option (List Char) := do
  let (year, r) ← fixedDigits 4 cs
  let (month, r) ← fixedDigits 2 (← expect '-' r)
  let (day, r) ← fixedDigits 2 (← expect '-' r)
  if 1 ≤ month && month ≤ 12 && 1 ≤ day && day ≤ daysIn year month then some r else none

/-- The text after the seconds of a time, which may have a fraction. -/
def skipSeconds (cs : List Char) : Option (List Char) := do
  let (second, r) ← fixedDigits 2 cs
  if 61 ≤ second then none
  else match r with
    | '.' :: r => if (r.takeWhile Char.isDigit).isEmpty then none else some (r.dropWhile Char.isDigit)
    | r => some r

/-- The text after a time of day, which may lack seconds. -/
def skipTime (cs : List Char) : Option (List Char) := do
  let (hour, r) ← fixedDigits 2 cs
  let (minute, r) ← fixedDigits 2 (← expect ':' r)
  if 24 ≤ hour || 60 ≤ minute then none
  else match r with
    | ':' :: r => skipSeconds r
    | r => some r

/-- Whether a text is an offset from universal time. -/
def isOffset : List Char → Bool
  | [c] => c = 'Z' || c = 'z'
  | c :: r =>
    (c = '+' || c = '-') && (do
      let (hour, r) ← fixedDigits 2 r
      let (minute, r) ← fixedDigits 2 (← expect ':' r)
      return hour < 24 && minute < 60 && r.isEmpty).getD false
  | [] => false

/-- Whether a text is a time, a date, or both with or without an offset. -/
def isMoment (cs : List Char) : Bool :=
  match skipDate cs with
  | none => skipTime cs == some []
  | some [] => true
  | some (c :: r) =>
    (c = 'T' || c = 't' || c = ' ') &&
      match skipTime r with
      | none => false
      | some [] => true
      | some r => isOffset r

/-- The value of a word. A date or time is a text. -/
def scalar? (cs : List Char) : Option Tree :=
  if cs = ['t', 'r', 'u', 'e'] then some (.boolean true)
  else if cs = ['f', 'a', 'l', 's', 'e'] then some (.boolean false)
  else if isMoment cs then some (.text (.ofList cs))
  else match cs with
    | '0' :: 'x' :: r => based? 16 r
    | '0' :: 'o' :: r => based? 8 r
    | '0' :: 'b' :: r => based? 2 r
    | _ => (special? cs).or (decimal? cs)

/-- A word in front of a text. A blank may stand between a date and a time. -/
def scanWord (cs : List Char) : List Char × List Char :=
  let word := cs.takeWhile isWordChar
  let rest := cs.drop word.length
  match rest with
  | ' ' :: d :: r =>
    if skipDate word == some [] && d.isDigit then
      let time := (d :: r).takeWhile isWordChar
      (word ++ ' ' :: time, (d :: r).drop time.length)
    else (word, rest)
  | _ => (word, rest)

/-- A value without quotes and brackets. -/
def scanScalar (cs : List Char) : Option (Tree × List Char) :=
  let (word, rest) := scanWord cs
  (scalar? word).map (·, rest)

end TierBudget.Toml
