import TierBudget.Text.Concealed
/-!
# Quoted text in messages

Messages quote the ids they list, so that blanks and controls in an id can be seen. A quote and a
backslash are escaped, the common controls have short forms, and other characters that leave no
mark are given by their code point.
-/

namespace TierBudget.Text

/-- The short escape of a character, if it has one. -/
def shortEscape? (c : Char) : Option Char :=
  if c = '\x22' || c = '\\' then some c
  else if c = '\x00' then some '0'
  else if c = '\t' then some 't'
  else if c = '\n' then some 'n'
  else if c = '\r' then some 'r'
  else none

/-- A character inside quotes. -/
def quoteChar (c : Char) : List Char :=
  match shortEscape? c with
  | some e => ['\\', e]
  | none =>
    if isConcealed c then '\\' :: 'u' :: '\x7b' :: Nat.toDigits 16 c.toNat ++ ['\x7d'] else [c]

/-- A text in double quotes. -/
def quote (s : String) : String := .ofList ('\x22' :: s.toList.flatMap quoteChar ++ ['\x22'])

/-- A list of quoted texts. -/
def quoteList (ss : List String) : String := "[" ++ ", ".intercalate (ss.map quote) ++ "]"

end TierBudget.Text
