import ClosedSwitch.Span
import ClosedSwitch.LineIndex
import ClosedSwitch.Diagnostic
import ClosedSwitch.Text.Blank
import ClosedSwitch.Decimal
import ClosedSwitch.Json.Basic
import ClosedSwitch.Json.Reader
import ClosedSwitch.Json.Printer
import ClosedSwitch.TypeTable.Basic
import ClosedSwitch.TypeTable.Conversion
import ClosedSwitch.TypeTable.Members
import ClosedSwitch.Nullability
import ClosedSwitch.Pattern
import ClosedSwitch.Snapshot.Basic
import ClosedSwitch.LoadError
import ClosedSwitch.TypeTable.Load
import ClosedSwitch.Hierarchy
import ClosedSwitch.Symbol
import ClosedSwitch.NullCase
import ClosedSwitch.Switch
import ClosedSwitch.Binding
import ClosedSwitch.Config.Basic
import ClosedSwitch.Program.Basic
import ClosedSwitch.Program.Load
import ClosedSwitch.Program.Locate
import ClosedSwitch.Program.Options
import ClosedSwitch.Coverage
import ClosedSwitch.Suppressor
import ClosedSwitch.Batch
import ClosedSwitch.Json.Record
import ClosedSwitch.Snapshot.OfJson
import ClosedSwitch.Toml.Basic
import ClosedSwitch.Toml.Lexical
import ClosedSwitch.Toml.Scalar
import ClosedSwitch.Toml.Table
import ClosedSwitch.Toml.Document
import ClosedSwitch.Config.OfToml
import ClosedSwitch.Text.Line
import ClosedSwitch.Report.Excerpt
import ClosedSwitch.Report.Layout
import ClosedSwitch.CommandLine.Arguments
import ClosedSwitch.CommandLine.Command
import ClosedSwitch.CommandLine.Run
import ClosedSwitch.Main
import ClosedSwitch.Proofs.TypeTable.Conversion
import ClosedSwitch.Proofs.TypeTable.Load
import ClosedSwitch.Proofs.TypeTable.Nesting
import ClosedSwitch.Proofs.TypeTable.Declarations
import ClosedSwitch.Proofs.TypeTable.BaseChain
import ClosedSwitch.Proofs.TypeTable.Bounds
import ClosedSwitch.Proofs.TypeTable.Numbering
import ClosedSwitch.Proofs.Load.Failure
import ClosedSwitch.Proofs.Load.WellFormed
import ClosedSwitch.Proofs.Load.FirstDefect
import ClosedSwitch.Proofs.Binding
import ClosedSwitch.Proofs.Hierarchy.Leaves
import ClosedSwitch.Proofs.Hierarchy.Judgment
import ClosedSwitch.Proofs.Hierarchy.Leniency
import ClosedSwitch.Proofs.Coverage.Declared
import ClosedSwitch.Proofs.Coverage.Matching
import ClosedSwitch.Proofs.Suppression.Locate
import ClosedSwitch.Proofs.Suppression.Soundness
import ClosedSwitch.Proofs.Suppression.Declared
import ClosedSwitch.Proofs.Suppression.Implementers
import ClosedSwitch.Proofs.Suppression.Batch
import ClosedSwitch.Proofs.Suppression.Interleaving
import ClosedSwitch.Proofs.Suppression.Forms
import ClosedSwitch.Proofs.Suppression.Replacement
import ClosedSwitch.Proofs.Suppression.Growth
import ClosedSwitch.Proofs.Order.Renumbering
import ClosedSwitch.Proofs.Order.Rearrangement
import ClosedSwitch.Proofs.Order.Coverage
import ClosedSwitch.Proofs.Order.Decisions
import ClosedSwitch.Proofs.TypeTable.Preorder
import ClosedSwitch.Proofs.Suppression.Ancestors
import ClosedSwitch.Proofs.Binding.Nodes
import ClosedSwitch.Proofs.Binding.Roles
import ClosedSwitch.Proofs.Options.Layers
import ClosedSwitch.Proofs.Suppression.Configuration
import ClosedSwitch.Proofs.Suppression.Narrowing
import ClosedSwitch.Proofs.TypeTable.Edits
import ClosedSwitch.Proofs.Hierarchy.Tightness
import ClosedSwitch.Proofs.Coverage.Contexts
import ClosedSwitch.Proofs.TypeTable.Lookup
import ClosedSwitch.Proofs.TypeTable.Deconstructors
import ClosedSwitch.Proofs.Binding.StaticTypes
import ClosedSwitch.Proofs.LineIndex
import ClosedSwitch.Proofs.Suppression.Innermost
import ClosedSwitch.Proofs.TypeTable.Inheritance
