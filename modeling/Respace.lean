import Respace.CommandLine.Arguments
import Respace.CommandLine.Help
import Respace.CommandLine.Run
import Respace.CommandLine.Surroundings
import Respace.CommandLine.Switch
import Respace.Files.Disk
import Respace.Files.Path
import Respace.Format.Mode
import Respace.Format.Result
import Respace.Format.Statistics
import Respace.Format.Tokens
import Respace.Json.Conversion
import Respace.Json.Printer
import Respace.Json.Reader
import Respace.Json.Value
import Respace.Logging.Hub
import Respace.Logging.Pattern
import Respace.Logging.Record
import Respace.Logging.Sink
import Respace.Main
import Respace.Messages.Catalog
import Respace.Messages.Style
import Respace.Messages.Template
import Respace.Number.Binary64
import Respace.Number.Fixed
import Respace.Number.Shortest
import Respace.Proofs.CommandLine.Arguments
import Respace.Proofs.CommandLine.Failure
import Respace.Proofs.CommandLine.Saved
import Respace.Proofs.CommandLine.Source
import Respace.Proofs.CommandLine.Surroundings
import Respace.Proofs.Except
import Respace.Proofs.Files.Disk
import Respace.Proofs.Files.Path
import Respace.Proofs.Format.Statistics
import Respace.Proofs.Format.Tokens
import Respace.Proofs.Json.Printed
import Respace.Proofs.Logging.Disk
import Respace.Proofs.Logging.Setup
import Respace.Proofs.Messages.Catalog
import Respace.Proofs.Messages.Failure
import Respace.Proofs.Messages.Template
import Respace.Proofs.Number.Binary64
import Respace.Proofs.Script.Agreement
import Respace.Proofs.Script.Compaction
import Respace.Proofs.Script.Draft
import Respace.Proofs.Script.Grammar
import Respace.Proofs.Script.Idempotence
import Respace.Proofs.Script.Indentation
import Respace.Proofs.Script.Ink
import Respace.Proofs.Script.Item
import Respace.Proofs.Script.LastToken
import Respace.Proofs.Script.Lexeme
import Respace.Proofs.Script.Lines
import Respace.Proofs.Script.Member
import Respace.Proofs.Script.NormalForm
import Respace.Proofs.Script.Omission
import Respace.Proofs.Script.Opacity
import Respace.Proofs.Script.Page
import Respace.Proofs.Script.Partition
import Respace.Proofs.Script.Sight
import Respace.Proofs.Script.Slash
import Respace.Proofs.Script.Spacing
import Respace.Proofs.Script.Transparency
import Respace.Proofs.Script.Unambiguous
import Respace.Proofs.Script.Unclosed
import Respace.Proofs.Settings.Store
import Respace.Proofs.Settings.Strictness
import Respace.Proofs.Settings.Validation
import Respace.Proofs.Settings.Validity
import Respace.Proofs.Text.Digit
import Respace.Script.Compact
import Respace.Script.Indent
import Respace.Script.Layout
import Respace.Script.Lexeme
import Respace.Script.Lookbehind
import Respace.Script.Position
import Respace.Script.Reformat
import Respace.Script.Scan
import Respace.Script.Segment
import Respace.Settings.Field
import Respace.Settings.Store
import Respace.Settings.Validation
import Respace.Text.Alphanumeric
import Respace.Text.Split
import Respace.Text.Character
import Respace.Text.Integer
import Respace.Text.Printable
import Respace.Text.Quoted
import Respace.Text.Utf8
