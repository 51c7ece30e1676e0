import LintCorpus.Aggregate
import LintCorpus.Catalog
import LintCorpus.Command
import LintCorpus.CommandLine.Arguments
import LintCorpus.CommandLine.Compare
import LintCorpus.CommandLine.Lint
import LintCorpus.CommandLine.Program
import LintCorpus.CommandLine.RunOptions
import LintCorpus.CommandLine.Session
import LintCorpus.Config.Basic
import LintCorpus.Config.CleanSet
import LintCorpus.Config.Kind
import LintCorpus.Config.Load
import LintCorpus.Console
import LintCorpus.Corpus.Context
import LintCorpus.Corpus.ProgressBar
import LintCorpus.Corpus.Run
import LintCorpus.Corpus.Workers
import LintCorpus.CorpusResult
import LintCorpus.CrateRoots
import LintCorpus.Diagnostic
import LintCorpus.Dict
import LintCorpus.Diff
import LintCorpus.Files.Fault
import LintCorpus.Files.Tree
import LintCorpus.Gate
import LintCorpus.Invocation
import LintCorpus.Json.Limits
import LintCorpus.Json.Reader
import LintCorpus.Json.Writer
import LintCorpus.Launch
import LintCorpus.LintName
import LintCorpus.Linter.Classify
import LintCorpus.Linter.Invoke
import LintCorpus.Main
import LintCorpus.Number.Binary64
import LintCorpus.Number.Numeral
import LintCorpus.Number.Shortest
import LintCorpus.Package
import LintCorpus.Path
import LintCorpus.Process.Child
import LintCorpus.Process.Table
import LintCorpus.Process.Threads
import LintCorpus.Record
import LintCorpus.Report.Markdown
import LintCorpus.Report.Table
import LintCorpus.Schema.Basic
import LintCorpus.Schema.Objection
import LintCorpus.Schema.Scalar
import LintCorpus.Severity
import LintCorpus.Stored.AssignFault
import LintCorpus.Stored.Form
import LintCorpus.Stored.Kind
import LintCorpus.Stored.Part
import LintCorpus.Stored.Report
import LintCorpus.Stored.Schema
import LintCorpus.Stream.Reader
import LintCorpus.Stream.Scanner
import LintCorpus.Text.Basic
import LintCorpus.Text.Blank
import LintCorpus.Text.CaseFold
import LintCorpus.Text.CellWidth
import LintCorpus.Text.DecimalDigit
import LintCorpus.Text.Integer
import LintCorpus.Text.Lines
import LintCorpus.Text.Printable
import LintCorpus.Text.Quoted
import LintCorpus.Text.Ranges
import LintCorpus.Text.ShellQuoted
import LintCorpus.Text.Shorten
import LintCorpus.Text.Similarity
import LintCorpus.Text.SystemText
import LintCorpus.Text.Terminal
import LintCorpus.Text.Utf8
import LintCorpus.Text.WordClass
import LintCorpus.Toml.Fault
import LintCorpus.Toml.Load
import LintCorpus.Toml.Reader
import LintCorpus.Toml.Scalar
import LintCorpus.Toml.Table
import LintCorpus.Toml.Text
import LintCorpus.Value
import LintCorpus.Value.Describe
import LintCorpus.Value.Loose
import LintCorpus.Workspace
import LintCorpus.Proofs.Json.Limits
import LintCorpus.Proofs.Json.Nesting
import LintCorpus.Proofs.Json.Object
import LintCorpus.Proofs.Text.Lines
import LintCorpus.Proofs.Text.Utf8
import LintCorpus.Proofs.Text.Encodable
import LintCorpus.Proofs.Stream.Excess
import LintCorpus.Proofs.Stream.Outcome
import LintCorpus.Proofs.Stream.Resume
import LintCorpus.Proofs.Stream.Settlement
import LintCorpus.Proofs.Stream.Start
import LintCorpus.Proofs.Stream.Clean
import LintCorpus.Proofs.Stream.JsonLines
import LintCorpus.Proofs.Aggregate.Findings
import LintCorpus.Proofs.Aggregate.Merge
import LintCorpus.Proofs.Aggregate.Status
import LintCorpus.Proofs.Sorting
import LintCorpus.Proofs.Aggregate.Packages
import LintCorpus.Proofs.Aggregate.Filter
import LintCorpus.Proofs.Files.Path
import LintCorpus.Proofs.Files.Tree
import LintCorpus.Proofs.Files.Write
import LintCorpus.Proofs.Failure
import LintCorpus.Proofs.Files.Read
import LintCorpus.Proofs.Catalog
import LintCorpus.Proofs.CrateRoots
import LintCorpus.Proofs.Marking
import LintCorpus.Proofs.Toml.Strings
import LintCorpus.Proofs.Toml.Scalars
import LintCorpus.Proofs.Toml.Document
import LintCorpus.Proofs.Linter.Invoke
import LintCorpus.Proofs.Gate
import LintCorpus.Proofs.Json.Encodable
import LintCorpus.Proofs.Report.Markdown
import LintCorpus.Proofs.Aggregate.Isolation
import LintCorpus.Proofs.CommandLine.Session
import LintCorpus.Proofs.CommandLine.Emit
import LintCorpus.Proofs.Corpus.Completion
import LintCorpus.Proofs.Report.Alike
import LintCorpus.Proofs.Report.RunOrder
import LintCorpus.Proofs.Report.Ties
import LintCorpus.Proofs.Report.DiffOrder
import LintCorpus.Proofs.Text.Plain
import LintCorpus.Proofs.Number.Rounding
import LintCorpus.Proofs.Number.Shortest
import LintCorpus.Proofs.Json.Numbers
import LintCorpus.Proofs.Json.Strings
import LintCorpus.Proofs.Json.RoundTrip
import LintCorpus.Proofs.Stored.Form
import LintCorpus.Proofs.Stored.RoundTrip
import LintCorpus.Proofs.Diff
import LintCorpus.Proofs.Stored.Assign
import LintCorpus.Proofs.CommandLine.Compare
import LintCorpus.Proofs.CommandLine.Arguments
import LintCorpus.Proofs.CommandLine.Inputs
import LintCorpus.Proofs.Schema
import LintCorpus.Proofs.Config.CleanLines
import LintCorpus.Proofs.Config.CleanSet
import LintCorpus.Proofs.Config.Options
import LintCorpus.Proofs.Process.Moves
import LintCorpus.Proofs.Process.Order
import LintCorpus.Proofs.Process.Numbers
import LintCorpus.Proofs.Process.Tracking
import LintCorpus.Proofs.Process.Signals
import LintCorpus.Proofs.Stream.Buffer
import LintCorpus.Proofs.Stream.Reuse
import LintCorpus.Proofs.Stream.OpenRecord
import LintCorpus.Proofs.Corpus.Partition
import LintCorpus.Proofs.Report.Sections
import LintCorpus.Proofs.Text.Blank
import LintCorpus.Proofs.LintName
import LintCorpus.Proofs.Resolution
import LintCorpus.Proofs.Report.TableLayout
import LintCorpus.Proofs.Aggregate.Tail
import LintCorpus.Proofs.Report.Fence
import LintCorpus.Proofs.Json.Framing
