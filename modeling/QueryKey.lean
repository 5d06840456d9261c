import QueryKey.Calendar.Basic
import QueryKey.Calendar.Text
import QueryKey.CommandLine.Arguments
import QueryKey.CommandLine.Execution
import QueryKey.Document.Form
import QueryKey.Document.Leaf
import QueryKey.Document.Reader
import QueryKey.Document.Shape
import QueryKey.Document.TreeFile
import QueryKey.Document.Writer
import QueryKey.Expr.Basic
import QueryKey.Expr.Body
import QueryKey.Expr.Builder
import QueryKey.Expr.Kind
import QueryKey.Expr.Payload
import QueryKey.Expr.Walk
import QueryKey.Failure
import QueryKey.Files
import QueryKey.Guid
import QueryKey.Json.Numeral
import QueryKey.Json.Parser
import QueryKey.Json.Printer
import QueryKey.Json.Value
import QueryKey.Key.Alias
import QueryKey.Key.Generator
import QueryKey.Key.Literal
import QueryKey.Key.Settings
import QueryKey.Key.SettingsFile
import QueryKey.Key.Template
import QueryKey.Key.Visit
import QueryKey.Main
import QueryKey.Metadata.Item
import QueryKey.Metadata.Primitive
import QueryKey.Metadata.Type
import QueryKey.Number.Binary
import QueryKey.Number.Decimal
import QueryKey.Number.FloatText
import QueryKey.Number.Power
import QueryKey.Number.Shortest
import QueryKey.Proofs.Calendar.Instants
import QueryKey.Proofs.Calendar.LeapSeconds
import QueryKey.Proofs.Calendar.ReadBack
import QueryKey.Proofs.CommandLine.Comparison
import QueryKey.Proofs.Document.Additions
import QueryKey.Proofs.Document.LeafReadBack
import QueryKey.Proofs.Document.Members
import QueryKey.Proofs.Document.Nesting
import QueryKey.Proofs.Document.Replacement
import QueryKey.Proofs.Document.RoundTrip
import QueryKey.Proofs.Document.TreeReadBack
import QueryKey.Proofs.Document.TypeReadBack
import QueryKey.Proofs.Document.Variations
import QueryKey.Proofs.Document.Versions
import QueryKey.Proofs.Expr.Body
import QueryKey.Proofs.Expr.Depth
import QueryKey.Proofs.Expr.Indexed
import QueryKey.Proofs.Expr.Position
import QueryKey.Proofs.Expr.SameValue
import QueryKey.Proofs.Expr.Traversal
import QueryKey.Proofs.Expr.Walk
import QueryKey.Proofs.GuidText
import QueryKey.Proofs.Json.Acceptance
import QueryKey.Proofs.Json.Arrangement
import QueryKey.Proofs.Json.Embedding
import QueryKey.Proofs.Json.Nesting
import QueryKey.Proofs.Json.ReadBack
import QueryKey.Proofs.Key.CleanTree
import QueryKey.Proofs.Key.Congruence
import QueryKey.Proofs.Key.Construction
import QueryKey.Proofs.Key.DepthLimit
import QueryKey.Proofs.Key.FirstFailure
import QueryKey.Proofs.Key.Flattening
import QueryKey.Proofs.Key.Fragments
import QueryKey.Proofs.Key.Frame
import QueryKey.Proofs.Key.FreeText
import QueryKey.Proofs.Key.Grammar
import QueryKey.Proofs.Key.Injectivity
import QueryKey.Proofs.Key.Layouts
import QueryKey.Proofs.Key.LiteralInjectivity
import QueryKey.Proofs.Key.LiteralReader
import QueryKey.Proofs.Key.Names
import QueryKey.Proofs.Key.Outcome
import QueryKey.Proofs.Key.Outline
import QueryKey.Proofs.Key.Pieces
import QueryKey.Proofs.Key.Quotation
import QueryKey.Proofs.Key.Readability
import QueryKey.Proofs.Key.Recorded
import QueryKey.Proofs.Key.Spelling
import QueryKey.Proofs.Key.Tokens
import QueryKey.Proofs.Metadata.CleanName
import QueryKey.Proofs.Metadata.Description
import QueryKey.Proofs.Metadata.Identity
import QueryKey.Proofs.Metadata.IdentityList
import QueryKey.Proofs.Number.DecimalText
import QueryKey.Proofs.Text.Digits
import QueryKey.Proofs.Validation.Agreement
import QueryKey.Proofs.Validation.Aliases
import QueryKey.Proofs.Validation.Composition
import QueryKey.Proofs.Validation.EmptyNames
import QueryKey.Proofs.Validation.Findings
import QueryKey.Proofs.Validation.Histories
import QueryKey.Proofs.Validation.Mismatch
import QueryKey.Proofs.Validation.Paths
import QueryKey.Text.Blank
import QueryKey.Text.Digits
import QueryKey.Text.Quoted
import QueryKey.Text.Scan
import QueryKey.Text.Vocabulary
import QueryKey.Toml.Parser
import QueryKey.Toml.Scalar
import QueryKey.Toml.Table
import QueryKey.Validation.Report
import QueryKey.Validation.Rule
