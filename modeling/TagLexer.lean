import TagLexer.Arguments.Parse
import TagLexer.Arguments.Switch
import TagLexer.Arguments.Usage
import TagLexer.Decimal.Double
import TagLexer.Decimal.Shortest
import TagLexer.Diagnostic
import TagLexer.Fault
import TagLexer.Files.Edit
import TagLexer.Files.FileSystem
import TagLexer.Files.Path
import TagLexer.Json
import TagLexer.Listing
import TagLexer.Main
import TagLexer.Note
import TagLexer.Position
import TagLexer.Program.Config
import TagLexer.Program.Run
import TagLexer.Program.Settings
import TagLexer.Program.Watch
import TagLexer.Report
import TagLexer.Scanner
import TagLexer.Segment
import TagLexer.Text.Basic
import TagLexer.Text.Blank
import TagLexer.Text.Cased
import TagLexer.Text.Digit
import TagLexer.Text.Newline
import TagLexer.Text.Numeral
import TagLexer.Text.Printable
import TagLexer.Text.Quoted
import TagLexer.Text.Ranges
import TagLexer.Text.Utf8
import TagLexer.Token.Basic
import TagLexer.Token.Word
import TagLexer.Toml.Calendar
import TagLexer.Toml.Grammar
import TagLexer.Toml.Quotation
import TagLexer.Toml.Reader
import TagLexer.Toml.Scalar
import TagLexer.Toml.Stack
import TagLexer.Toml.Tree
import TagLexer.Toml.Value
import TagLexer.Uri.Authority
import TagLexer.Uri.Host
import TagLexer.Uri.Percent
import TagLexer.Version
import TagLexer.Workspace
import TagLexer.Proofs.Segment.Fits
import TagLexer.Proofs.Scan.Concat
import TagLexer.Proofs.Scan.Tiling
import TagLexer.Proofs.Scan.Image
import TagLexer.Proofs.Scan.Seam
import TagLexer.Proofs.Scan.History
import TagLexer.Proofs.Scan.Comment
import TagLexer.Proofs.Text.Newline
import TagLexer.Proofs.Text.Utf8
import TagLexer.Proofs.Text.Quoted
import TagLexer.Proofs.Scan.LineEnd
import TagLexer.Proofs.Report.Agreement
import TagLexer.Proofs.Files.Write
import TagLexer.Proofs.Program.Delivery
import TagLexer.Proofs.Toml.Nesting
import TagLexer.Proofs.Program.Refusal
import TagLexer.Proofs.Program.Stack
import TagLexer.Proofs.Program.Ending
import TagLexer.Proofs.Program.Survival
import TagLexer.Proofs.Editor.Ranges
import TagLexer.Proofs.Editor.Client
import TagLexer.Proofs.Scan.Moves
import TagLexer.Proofs.Listing.Lines
import TagLexer.Proofs.Text.Coordinates
import TagLexer.Proofs.Json.Grammar
import TagLexer.Proofs.Json.Reader
import TagLexer.Proofs.Json.Exactness
import TagLexer.Proofs.Json.Written
import TagLexer.Proofs.Listing.Documents
import TagLexer.Proofs.Scan.Layout
import TagLexer.Proofs.Arguments.Order
import TagLexer.Proofs.Arguments.Void
import TagLexer.Proofs.Token.Number
import TagLexer.Proofs.Program.Precedence
import TagLexer.Proofs.Scan.Progress
