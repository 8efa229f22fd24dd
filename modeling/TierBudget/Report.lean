import TierBudget.Json.Wire
import TierBudget.Text.Table
/-!
# Reports

A report lists the entries of a tier with their counts. It is written as JSON or as a table, and the
table is followed by the total of the counts.
-/

namespace TierBudget

/-- One endpoint of a report. -/
structure ReportRow where
  id : String
  unit : Float
  count : Count
deriving DecidableEq

/-- The entries of a tier at a scale. -/
structure Report where
  scale : Scale
  rows : List ReportRow
deriving DecidableEq

/-- A share in percent, with two decimal places. -/
def percentage (unit : Float) : String := places 2 (unit * 100) ++ "%"

namespace Report

/-- The report of the given entries. -/
def ofEntries (p : Policy) (entries : List (Entry String)) : Report :=
  ⟨p.scale, entries.zipWith (fun e f => ⟨f.id, e.unit, f.count⟩) (p.toFixed entries)⟩

/-- The sum of the counts, unless it leaves the 32-bit range. -/
def total? (r : Report) : Option Count := Count.sum? (r.rows.map ReportRow.count)

/-- The endpoints that have no weight, among several. -/
def vacated (r : Report) : List String :=
  if 1 < r.rows.length then (r.rows.filter (·.count == 0)).map ReportRow.id else []

/-- The JSON form of a report. -/
def toJson (r : Report) : Json :=
  .record [("scale", Codec.scale.encode r.scale),
    ("weights", .array (r.rows.map fun row =>
      .record [("id", .text row.id), ("unit", .float row.unit),
        ("fixed", Codec.count.encode row.count)]))]

/-- The table of a report. -/
def toTable (r : Report) : Text.Table where
  header := ["Endpoint", "Share", s!"Fixed (/{decimalText r.scale.size.toNat})"]
  rows := r.rows.map fun row => [row.id, percentage row.unit, decimalText row.count.toNat]

end Report

end TierBudget
