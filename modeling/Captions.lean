import Captions.Text
import Captions.Text.Blank
import Captions.Text.Digit
import Captions.Text.Case
import Captions.Text.Printable
import Captions.Text.Quoted
import Captions.Text.Utf8
import Captions.Text.Decimal
import Captions.Moment
import Captions.Number.Rounding
import Captions.Number.Binary64
import Captions.Number.Shortest
import Captions.Number.Numeral
import Captions.Number
import Captions.Value
import Captions.Clock
import Captions.Timestamp
import Captions.Style
import Captions.Instruction
import Captions.Cue
import Captions.Notice
import Captions.Timeline
import Captions.Document
import Captions.FilePath
import Captions.FileTree
import Captions.Source
import Captions.Run
import Captions.Player
import Captions.Manifest
import Captions.Yaml.Fault
import Captions.Yaml.Token
import Captions.Yaml.Plain
import Captions.Yaml.Quoted
import Captions.Yaml.Block
import Captions.Yaml.Property
import Captions.Yaml.Scan
import Captions.Yaml.Node
import Captions.Yaml.Moment
import Captions.Yaml.Scalar
import Captions.Yaml.Tree
import Captions.Yaml
import Captions.Settings
import Captions.Json
import Captions.CommandLine.Arguments
import Captions.CommandLine.Sleeper
import Captions.CommandLine
import Captions.Main
import Captions.Proofs.Outcome
import Captions.Proofs.Number.Rounding
import Captions.Proofs.Number.Value
import Captions.Proofs.Value.Writable
import Captions.Proofs.Number.Numeral
import Captions.Proofs.Timestamp.Canonical
import Captions.Proofs.Timeline.Emitted
import Captions.Proofs.Timeline.Millis
import Captions.Proofs.Timeline.Replay
import Captions.Proofs.Timeline.Ordered
import Captions.Proofs.Number.Spacing
import Captions.Proofs.Timestamp.Drift
import Captions.Proofs.Clock.Reading
import Captions.Proofs.Timeline.Preview
import Captions.Proofs.Text.Lines
import Captions.Proofs.Document.Blocks
import Captions.Proofs.Source.Files
import Captions.Proofs.Number.Decimal
import Captions.Proofs.Document.Times
import Captions.Proofs.Document.Rendered
import Captions.Proofs.Document.Fractions
import Captions.Proofs.Timeline.Positive
import Captions.Proofs.Timeline.Pulled
import Captions.Proofs.Number.Magnitude
import Captions.Proofs.Timestamp.Finite
import Captions.Proofs.Source.Normal
import Captions.Proofs.Clock.Finite
import Captions.Proofs.Text.Pieces
import Captions.Proofs.Instruction.Parts
import Captions.Proofs.Instruction.Listed
import Captions.Proofs.Run.Ending
import Captions.Proofs.Player.Walk
import Captions.Proofs.Document.Faults
import Captions.Proofs.Source.Faults
import Captions.Proofs.Run.Outcome
import Captions.Proofs.Clock.Order
import Captions.Proofs.Clock.RoundTrip
import Captions.Proofs.Timestamp.Order
import Captions.Proofs.Timeline.Chronological
import Captions.Proofs.Number.Overflow
import Captions.Proofs.Timestamp.Overflow
import Captions.Proofs.Settings.Fields
import Captions.Proofs.Settings.Layers
import Captions.Proofs.Clock.Accuracy
import Captions.Proofs.Text.Tags
import Captions.Proofs.Style.PlainText
import Captions.Proofs.Number.Quotient
import Captions.Proofs.Player.Waits
import Captions.Proofs.Style.Resolved
import Captions.Proofs.Instruction.Entries
import Captions.Proofs.FilePath.Normal
import Captions.Proofs.Source.Judged
import Captions.Proofs.Settings.Given
import Captions.Proofs.Timestamp.Spelling
import Captions.Proofs.FileTree.Grown
import Captions.Proofs.CommandLine.Logged
import Captions.Proofs.CommandLine.Failing
import Captions.Proofs.CommandLine.Playing
import Captions.Proofs.Run.Writable
import Captions.Proofs.CommandLine.Ending
