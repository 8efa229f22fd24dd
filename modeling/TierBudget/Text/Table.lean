import TierBudget.Text.Split
import TierBudget.Text.Width
/-!
# Tables

A table is drawn in box characters with round corners: a double line under the header and dashed
lines between rows and columns. A column is as wide as the widest line of its cells, which are set
to the left with a blank on both sides.
-/

namespace TierBudget.Text

/-- A header and rows of cells, as many in each row as in the header. -/
structure Table where
  header : List String
  rows : List (List String)
deriving DecidableEq

namespace Table

/-- The lines of a cell. -/
def cellLines (cell : String) : List (List Char) := split '\n' cell.toList

/-- The width of the widest line of a cell. -/
def cellWidth (cell : String) : Nat := ((cellLines cell).map width).foldl max 0

/-- The widths of the columns. -/
def widths (t : Table) : List Nat :=
  t.rows.foldl (fun ws row => ws.zipWith max (row.map cellWidth)) (t.header.map cellWidth)

/-- A line across the table. -/
def rule (left fill cross right : Char) (ws : List Nat) : List Char :=
  left :: ((ws.map fun w => List.replicate (w + 2) fill).intersperse [cross]).flatten ++ [right]

/-- A line of cells, each text set to the left in its width. -/
def cells (ws : List Nat) (texts : List (List Char)) : List Char :=
  let padded := ws.zipWith (fun w s => ' ' :: s ++ List.replicate (w + 1 - width s) ' ') texts
  '│' :: (padded.intersperse ['┆']).flatten ++ ['│']

/-- The lines of a row, as many as its highest cell has. -/
def rowLines (ws : List Nat) (row : List String) : List (List Char) :=
  let columns := row.map cellLines
  let height := (columns.map List.length).foldl max 0
  (List.range height).map fun i => cells ws (columns.map fun ls => ls[i]?.getD [])

/-- The lines of the table. -/
def lines (t : Table) : List (List Char) :=
  let ws := t.widths
  let dashes := rule '├' '╌' '┼' '┤' ws
  [rule '╭' '─' '┬' '╮' ws] ++ rowLines ws t.header ++ [rule '╞' '═' '╪' '╡' ws] ++
    ((t.rows.map (rowLines ws)).intersperse [dashes]).flatten ++ [rule '╰' '─' '┴' '╯' ws]

/-- The text of the table, without a line break at its end. -/
def write (t : Table) : String := .ofList (t.lines.intersperse ['\n']).flatten

end Table

end TierBudget.Text
