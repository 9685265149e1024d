import GrammarText.Antlr.Body
import GrammarText.Antlr.Convert
import GrammarText.Antlr.Reader
import GrammarText.Antlr.Skip
import GrammarText.Antlr.Statement
import GrammarText.Command.Activity
import GrammarText.Command.Failure
import GrammarText.Command.Help
import GrammarText.Command.Log
import GrammarText.Command.Option
import GrammarText.Command.Reading
import GrammarText.Command.Request
import GrammarText.Command.Run
import GrammarText.Data.Json
import GrammarText.Data.Numeral
import GrammarText.Data.Toml.Basic
import GrammarText.Data.Toml.Document
import GrammarText.Data.Toml.Nest
import GrammarText.Data.Toml.Scalar
import GrammarText.Data.Toml.Text
import GrammarText.Data.Value
import GrammarText.Error.Command
import GrammarText.Error.Located
import GrammarText.Files.Disk
import GrammarText.Files.Path
import GrammarText.Layout.Document
import GrammarText.Layout.Render
import GrammarText.Layout.Style
import GrammarText.Layout.Words
import GrammarText.Lint.Balance
import GrammarText.Lint.Check
import GrammarText.Lint.Finding
import GrammarText.Lint.Graph
import GrammarText.Lint.Reference
import GrammarText.Lint.Report
import GrammarText.Lint.Session
import GrammarText.Main
import GrammarText.Proofs.Antlr.Comment
import GrammarText.Proofs.Antlr.Deletion
import GrammarText.Proofs.Antlr.Dialects
import GrammarText.Proofs.Antlr.Document
import GrammarText.Proofs.Antlr.Exceptions
import GrammarText.Proofs.Antlr.Gist
import GrammarText.Proofs.Antlr.Independence
import GrammarText.Proofs.Antlr.Line
import GrammarText.Proofs.Antlr.Paths
import GrammarText.Proofs.Antlr.Places
import GrammarText.Proofs.Antlr.Progress
import GrammarText.Proofs.Antlr.Reading
import GrammarText.Proofs.Antlr.Recovery
import GrammarText.Proofs.Antlr.Rest
import GrammarText.Proofs.Antlr.Shape
import GrammarText.Proofs.Command.Format
import GrammarText.Proofs.Files.Contents
import GrammarText.Proofs.Files.Disk
import GrammarText.Proofs.Files.Path
import GrammarText.Proofs.Layout.Canonical
import GrammarText.Proofs.Layout.Characters
import GrammarText.Proofs.Layout.Clean
import GrammarText.Proofs.Layout.Comments
import GrammarText.Proofs.Layout.Essence
import GrammarText.Proofs.Layout.Evened
import GrammarText.Proofs.Layout.Filling
import GrammarText.Proofs.Layout.Groups
import GrammarText.Proofs.Layout.Idempotence
import GrammarText.Proofs.Layout.Joining
import GrammarText.Proofs.Layout.LastPass
import GrammarText.Proofs.Layout.LineEnds
import GrammarText.Proofs.Layout.Parting
import GrammarText.Proofs.Layout.Preservation
import GrammarText.Proofs.Layout.Quiet
import GrammarText.Proofs.Layout.Reading
import GrammarText.Proofs.Layout.Restoring
import GrammarText.Proofs.Layout.Rows
import GrammarText.Proofs.Layout.Spacing
import GrammarText.Proofs.Layout.Thinning
import GrammarText.Proofs.Layout.Trim
import GrammarText.Proofs.Layout.Trimmed
import GrammarText.Proofs.Layout.Unclosed
import GrammarText.Proofs.Layout.Width
import GrammarText.Proofs.Layout.Wrapping
import GrammarText.Proofs.Lint.Balance
import GrammarText.Proofs.Lint.Independence
import GrammarText.Proofs.Lint.Isolation
import GrammarText.Proofs.Lint.LeadingName
import GrammarText.Proofs.Lint.Reachability
import GrammarText.Proofs.Lint.Sharing
import GrammarText.Proofs.Lint.Structural
import GrammarText.Proofs.Lint.Undefined
import GrammarText.Proofs.Lint.Verdict
import GrammarText.Proofs.Rule.Alternatives
import GrammarText.Proofs.Rule.Body
import GrammarText.Proofs.Rule.Extraction
import GrammarText.Proofs.Rule.Insertion
import GrammarText.Proofs.Rule.Leading
import GrammarText.Proofs.Rule.Locality
import GrammarText.Proofs.Rule.Outline
import GrammarText.Proofs.Rule.Padding
import GrammarText.Proofs.Rule.Partition
import GrammarText.Proofs.Rule.Repair
import GrammarText.Proofs.Rule.Splitting
import GrammarText.Proofs.Scan.Boundary
import GrammarText.Proofs.Scan.Closing
import GrammarText.Proofs.Scan.Composition
import GrammarText.Proofs.Scan.Cursor
import GrammarText.Proofs.Scan.Lexeme
import GrammarText.Proofs.Scan.Seam
import GrammarText.Proofs.Settings.Loading
import GrammarText.Proofs.Text.Lines
import GrammarText.Proofs.Text.Utf8
import GrammarText.Rule.Basic
import GrammarText.Rule.Extract
import GrammarText.Rule.Name
import GrammarText.Settings.Basic
import GrammarText.Settings.Load
import GrammarText.Text.Blank
import GrammarText.Text.CodePoints
import GrammarText.Text.Columns
import GrammarText.Text.Digit
import GrammarText.Text.Letter
import GrammarText.Text.Lines
import GrammarText.Text.Printable
import GrammarText.Text.Quoted
import GrammarText.Text.Uppercase
import GrammarText.Text.Utf8
import GrammarText.Token.Basic
import GrammarText.Token.Cursor
import GrammarText.Token.Form
import GrammarText.Token.Scan
