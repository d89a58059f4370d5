import NaturalDeduction.Command.Arguments
import NaturalDeduction.Command.Files
import NaturalDeduction.Command.Log
import NaturalDeduction.Command.Run
import NaturalDeduction.Formula.Basic
import NaturalDeduction.Formula.Instance
import NaturalDeduction.Formula.Parser
import NaturalDeduction.Formula.Printer
import NaturalDeduction.Formula.Replacement
import NaturalDeduction.Formula.Substitution
import NaturalDeduction.Line.Basic
import NaturalDeduction.Line.Citation
import NaturalDeduction.Main
import NaturalDeduction.Proof.Basic
import NaturalDeduction.Proof.Journal
import NaturalDeduction.Proof.Source
import NaturalDeduction.Proofs.BehindColon
import NaturalDeduction.Proofs.Capture
import NaturalDeduction.Proofs.Complaints
import NaturalDeduction.Proofs.Composition
import NaturalDeduction.Proofs.Conclusion
import NaturalDeduction.Proofs.Coverage
import NaturalDeduction.Proofs.DepthLaw
import NaturalDeduction.Proofs.FailFast
import NaturalDeduction.Proofs.FormulaText
import NaturalDeduction.Proofs.Grammar
import NaturalDeduction.Proofs.GrammarReading
import NaturalDeduction.Proofs.History
import NaturalDeduction.Proofs.Hypotheses
import NaturalDeduction.Proofs.Instances
import NaturalDeduction.Proofs.Lexemes
import NaturalDeduction.Proofs.LineSpans
import NaturalDeduction.Proofs.Locality
import NaturalDeduction.Proofs.LookUps
import NaturalDeduction.Proofs.MovedTokens
import NaturalDeduction.Proofs.NearestSettings
import NaturalDeduction.Proofs.Nesting
import NaturalDeduction.Proofs.Provenance
import NaturalDeduction.Proofs.ReadCitations
import NaturalDeduction.Proofs.Reading
import NaturalDeduction.Proofs.Rejections
import NaturalDeduction.Proofs.Renumbering
import NaturalDeduction.Proofs.Responses
import NaturalDeduction.Proofs.RoundTrip
import NaturalDeduction.Proofs.RuleCompleteness
import NaturalDeduction.Proofs.RuleSoundness
import NaturalDeduction.Proofs.RuleTable
import NaturalDeduction.Proofs.Scanning
import NaturalDeduction.Proofs.Semantics
import NaturalDeduction.Proofs.Soundness
import NaturalDeduction.Proofs.Spacing
import NaturalDeduction.Proofs.Spelling
import NaturalDeduction.Proofs.Strictness
import NaturalDeduction.Proofs.Templates
import NaturalDeduction.Proofs.TokenBoundaries
import NaturalDeduction.Proofs.ViablePrefix
import NaturalDeduction.Proofs.Walk
import NaturalDeduction.Proofs.WrittenCitations
import NaturalDeduction.Proofs.WrittenLines
import NaturalDeduction.Report.Basic
import NaturalDeduction.Report.Diagnostic
import NaturalDeduction.Report.Row
import NaturalDeduction.Report.Style
import NaturalDeduction.Report.Window
import NaturalDeduction.Rule.Basic
import NaturalDeduction.Rule.Check
import NaturalDeduction.Rule.Violation
import NaturalDeduction.Settings
import NaturalDeduction.Subproof.Basic
import NaturalDeduction.Text.Alphabetic
import NaturalDeduction.Text.Blank
import NaturalDeduction.Text.CodePoints
import NaturalDeduction.Text.Lines
import NaturalDeduction.Text.Numeric
import NaturalDeduction.Text.Span
import NaturalDeduction.Token.Basic
import NaturalDeduction.Token.Cursor
import NaturalDeduction.Token.Scan
import NaturalDeduction.Toml.Document
import NaturalDeduction.Toml.Parser
import NaturalDeduction.Toml.Scalar
import NaturalDeduction.Toml.Text
