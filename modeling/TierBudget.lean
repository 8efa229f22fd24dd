import TierBudget.Apportionment
import TierBudget.Board
import TierBudget.Catalogue
import TierBudget.CommandLine.Files
import TierBudget.CommandLine.Flag
import TierBudget.CommandLine.Invocation
import TierBudget.CommandLine.Lexeme
import TierBudget.CommandLine.Outcome
import TierBudget.CommandLine.Overview
import TierBudget.CommandLine.Run
import TierBudget.Coordinator
import TierBudget.Count
import TierBudget.Decimal.Basic
import TierBudget.Decimal.Layout
import TierBudget.Decimal.Numeral
import TierBudget.Decimal.Scaled
import TierBudget.Decimal.Shortest
import TierBudget.Ini.Document
import TierBudget.Json.Basic
import TierBudget.Json.Printer
import TierBudget.Json.Reader
import TierBudget.Json.Token
import TierBudget.Json.Tree
import TierBudget.Json.Wire
import TierBudget.Json5.Document
import TierBudget.Json5.Scalar
import TierBudget.Magnitude
import TierBudget.Main
import TierBudget.Picker
import TierBudget.Policy
import TierBudget.Proofs.Apportionment.Cut
import TierBudget.Proofs.Apportionment.Fair
import TierBudget.Proofs.Apportionment.Pulled
import TierBudget.Proofs.Apportionment.Ranks
import TierBudget.Proofs.Apportionment.Recover
import TierBudget.Proofs.Apportionment.Stepwise
import TierBudget.Proofs.Apportionment.Sum
import TierBudget.Proofs.Apportionment.Turns
import TierBudget.Proofs.Binary64.Arithmetic
import TierBudget.Proofs.Binary64.Near
import TierBudget.Proofs.Binary64.Nearest
import TierBudget.Proofs.Binary64.Order
import TierBudget.Proofs.Binary64.Packing
import TierBudget.Proofs.Binary64.Residual
import TierBudget.Proofs.Budget
import TierBudget.Proofs.Clipped
import TierBudget.Proofs.Coordinator.Crowded
import TierBudget.Proofs.Coordinator.DelayedLoad
import TierBudget.Proofs.Coordinator.Independence
import TierBudget.Proofs.Coordinator.Isolation
import TierBudget.Proofs.Coordinator.Moves
import TierBudget.Proofs.Coordinator.Scales
import TierBudget.Proofs.Coordinator.Seeded
import TierBudget.Proofs.Coordinator.Sync
import TierBudget.Proofs.Crowded
import TierBudget.Proofs.Decimal.Reading
import TierBudget.Proofs.Decimal.Scaled
import TierBudget.Proofs.Decimal.Written
import TierBudget.Proofs.Difference
import TierBudget.Proofs.Encoding
import TierBudget.Proofs.Endpoints
import TierBudget.Proofs.EvenSplits
import TierBudget.Proofs.InPlace.Boards
import TierBudget.Proofs.InPlace.Sessions
import TierBudget.Proofs.InStep
import TierBudget.Proofs.Json.Codecs
import TierBudget.Proofs.Json.Doubles
import TierBudget.Proofs.Json.Records
import TierBudget.Proofs.Json.Stability
import TierBudget.Proofs.Json.Strings
import TierBudget.Proofs.Json.Texts
import TierBudget.Proofs.LargestRemainder
import TierBudget.Proofs.Normalized
import TierBudget.Proofs.OtherScales
import TierBudget.Proofs.Overflow
import TierBudget.Proofs.Percentages
import TierBudget.Proofs.Plans
import TierBudget.Proofs.Points
import TierBudget.Proofs.Rebalanced
import TierBudget.Proofs.Redistribution
import TierBudget.Proofs.Repeated
import TierBudget.Proofs.Reports
import TierBudget.Proofs.RoundTrip
import TierBudget.Proofs.Session.Calls
import TierBudget.Proofs.Session.Fields
import TierBudget.Proofs.Session.Gate
import TierBudget.Proofs.Session.History
import TierBudget.Proofs.Session.Operations
import TierBudget.Proofs.Settings.Documents
import TierBudget.Proofs.Settings.Layers
import TierBudget.Proofs.Settings.Trees
import TierBudget.Proofs.Settled
import TierBudget.Proofs.Shifted
import TierBudget.Proofs.Shares
import TierBudget.Proofs.Snapshot
import TierBudget.Proofs.Tiers
import TierBudget.Proofs.Upserts
import TierBudget.Proofs.Vacated
import TierBudget.Proofs.Values
import TierBudget.Random
import TierBudget.Report
import TierBudget.Ron.Document
import TierBudget.Ron.Scalar
import TierBudget.Scale
import TierBudget.Session
import TierBudget.Settings.Basic
import TierBudget.Settings.Environment
import TierBudget.Settings.Format
import TierBudget.Settings.Load
import TierBudget.Simulation
import TierBudget.Store
import TierBudget.Text.Concealed
import TierBudget.Text.Emoji
import TierBudget.Text.Letters
import TierBudget.Text.Marks
import TierBudget.Text.Quoted
import TierBudget.Text.Ranges
import TierBudget.Text.Spaces
import TierBudget.Text.Split
import TierBudget.Text.Table
import TierBudget.Text.Unassigned
import TierBudget.Text.Wide
import TierBudget.Text.Width
import TierBudget.Tier
import TierBudget.Toml.Document
import TierBudget.Toml.Scalar
import TierBudget.Toml.Text
import TierBudget.Tree.Basic
import TierBudget.Tree.Overlay
import TierBudget.Tree.Path
import TierBudget.Weight
import TierBudget.Yaml.Block
import TierBudget.Yaml.Cursor
import TierBudget.Yaml.Document
import TierBudget.Yaml.Node
import TierBudget.Yaml.Plain
import TierBudget.Yaml.Quoted
import TierBudget.Yaml.Scan.Basic
import TierBudget.Yaml.Scan.Content
import TierBudget.Yaml.Scan.Directive
import TierBudget.Yaml.Scan.Flow
import TierBudget.Yaml.Scan.Key
import TierBudget.Yaml.Scan.Run
import TierBudget.Yaml.Token
