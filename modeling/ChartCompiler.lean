import ChartCompiler.Aggregate
import ChartCompiler.Bin
import ChartCompiler.Channel
import ChartCompiler.Config
import ChartCompiler.Decimal.Rounding
import ChartCompiler.Decimal.Style
import ChartCompiler.Definition
import ChartCompiler.Definition.Band
import ChartCompiler.Definition.Output
import ChartCompiler.Diagnostic
import ChartCompiler.Explicit
import ChartCompiler.Explicit.Table
import ChartCompiler.Expression
import ChartCompiler.Json.Basic
import ChartCompiler.Json.Outline
import ChartCompiler.Json.Parser
import ChartCompiler.Json.Printer
import ChartCompiler.Json.Quoted
import ChartCompiler.Keyword
import ChartCompiler.Layout.Key
import ChartCompiler.Layout.Resolve
import ChartCompiler.Layout.Sharing
import ChartCompiler.Layout.Signals
import ChartCompiler.Layout.Size
import ChartCompiler.Mark
import ChartCompiler.Naming
import ChartCompiler.Naming.Renames
import ChartCompiler.Notice
import ChartCompiler.Proofs.Float.Equality
import ChartCompiler.Proofs.Float.Value
import ChartCompiler.Proofs.Layout.Aliases
import ChartCompiler.Proofs.Layout.Declarations
import ChartCompiler.Proofs.Layout.Entries
import ChartCompiler.Proofs.Layout.Landing
import ChartCompiler.Proofs.Layout.Merging
import ChartCompiler.Proofs.Layout.Outcome
import ChartCompiler.Proofs.Layout.References
import ChartCompiler.Proofs.Layout.Settled
import ChartCompiler.Proofs.Layout.Units
import ChartCompiler.Proofs.Naming.Chains
import ChartCompiler.Proofs.Reference.Weights
import ChartCompiler.Proofs.Tree.Descent
import ChartCompiler.Proofs.Tree.Links
import ChartCompiler.Reference
import ChartCompiler.Reference.Interpolation
import ChartCompiler.Reference.MidPoint
import ChartCompiler.Reference.Validity
import ChartCompiler.Scale
import ChartCompiler.Schema.Bin
import ChartCompiler.Schema.Config
import ChartCompiler.Schema.Definition
import ChartCompiler.Schema.Record
import ChartCompiler.Schema.Reference
import ChartCompiler.Schema.Scale
import ChartCompiler.Stack
import ChartCompiler.Text.Printable
import ChartCompiler.Text.Ranges
import ChartCompiler.Text.Word
import ChartCompiler.View
import ChartCompiler.View.Tree
import ChartCompiler.Proofs.Tree.Histories
import ChartCompiler.Proofs.Layout.Leaves
import ChartCompiler.Proofs.Layout.Duplicates
import ChartCompiler.Proofs.Reference.Guard
import ChartCompiler.Proofs.Json.Order
import ChartCompiler.Proofs.Schema.Records
import ChartCompiler.Proofs.Schema.Definitions
import ChartCompiler.Proofs.Json.Reading
import ChartCompiler.Proofs.Schema.Configurations
import ChartCompiler.Proofs.Layout.Authors
import ChartCompiler.Proofs.Naming.Replay
import ChartCompiler.Proofs.Layout.Echoes
import ChartCompiler.Proofs.Layout.Resettling
import ChartCompiler.Proofs.Explicit.Folds
import ChartCompiler.Proofs.Reference.Forms
import ChartCompiler.Proofs.Layout.Locality
import ChartCompiler.Proofs.Layout.Sharing
import ChartCompiler.Proofs.Float.Unpacking
import ChartCompiler.Proofs.Reference.Reflection
import ChartCompiler.Proofs.Reference.Independence
import ChartCompiler.Proofs.Reference.Offsets
import ChartCompiler.Proofs.Layout.Inferred
import ChartCompiler.Proofs.Layout.Traversal
import ChartCompiler.Proofs.Reference.Bands
import ChartCompiler.Proofs.Json.Spelling
import ChartCompiler.Proofs.Naming.Renderings
import ChartCompiler.Proofs.Naming.Cycles
import ChartCompiler.Proofs.Naming.Identifiers
import ChartCompiler.Proofs.Layout.Identifiers
import ChartCompiler.Proofs.Schema.Alternatives
import ChartCompiler.Proofs.Decimal.Shortest
import ChartCompiler.Proofs.Float.Magnitude
import ChartCompiler.Proofs.Decimal.Numerals
import ChartCompiler.Proofs.Naming.Parts
import ChartCompiler.Proofs.Naming.Bins
