import TapeAsm.Command.Argument
import TapeAsm.Command.Execute
import TapeAsm.Command.Registry
import TapeAsm.Command.Signature
import TapeAsm.Command.Usage
import TapeAsm.Cue.Constraint
import TapeAsm.Cue.Decode
import TapeAsm.Cue.Document
import TapeAsm.Cue.Evaluate
import TapeAsm.Cue.Expr
import TapeAsm.Cue.Grammar
import TapeAsm.Cue.Language
import TapeAsm.Cue.Node
import TapeAsm.Cue.Number
import TapeAsm.Cue.Operation
import TapeAsm.Cue.Path
import TapeAsm.Cue.Quoted
import TapeAsm.Cue.Scalar
import TapeAsm.Cue.Schema
import TapeAsm.Cue.Token
import TapeAsm.Cue.Value
import TapeAsm.Decimal.Basic
import TapeAsm.Decimal.Binary
import TapeAsm.Decimal.Shortest
import TapeAsm.Failure
import TapeAsm.Fault
import TapeAsm.Inspect.Datum
import TapeAsm.Inspect.Globals
import TapeAsm.Inspect.Value
import TapeAsm.Log.Line
import TapeAsm.Log.Record
import TapeAsm.Log.Span
import TapeAsm.Machine.Basic
import TapeAsm.Machine.Config
import TapeAsm.Machine.Execute
import TapeAsm.Machine.Interpret
import TapeAsm.Main
import TapeAsm.Mode
import TapeAsm.Program.Instr
import TapeAsm.Program.Layout
import TapeAsm.Program.Op
import TapeAsm.Program.Parse
import TapeAsm.Program.Token
import TapeAsm.Proofs.Command.Binding
import TapeAsm.Proofs.Command.Composition
import TapeAsm.Proofs.Command.Definitions
import TapeAsm.Proofs.Command.Listing
import TapeAsm.Proofs.Command.Numbers
import TapeAsm.Proofs.Command.Variables
import TapeAsm.Proofs.Inspect.Functions
import TapeAsm.Proofs.Inspect.Refusal
import TapeAsm.Proofs.Log.Lines
import TapeAsm.Proofs.Log.Spans
import TapeAsm.Proofs.Machine.Calls
import TapeAsm.Proofs.Machine.Flat
import TapeAsm.Proofs.Machine.Halt
import TapeAsm.Proofs.Machine.Limit
import TapeAsm.Proofs.Machine.Lockstep
import TapeAsm.Proofs.Machine.LoopExit
import TapeAsm.Proofs.Machine.Loops
import TapeAsm.Proofs.Machine.Marker
import TapeAsm.Proofs.Machine.Rendering
import TapeAsm.Proofs.Machine.Reprint
import TapeAsm.Proofs.Machine.Run
import TapeAsm.Proofs.Machine.Sequence
import TapeAsm.Proofs.Machine.Tapes
import TapeAsm.Proofs.Machine.Trace
import TapeAsm.Proofs.Program.Balance
import TapeAsm.Proofs.Program.Faults
import TapeAsm.Proofs.Program.Indentation
import TapeAsm.Proofs.Program.Measures
import TapeAsm.Proofs.Program.Rescanning
import TapeAsm.Proofs.Program.Scanning
import TapeAsm.Proofs.Program.Spelling
import TapeAsm.Proofs.Program.Tree
import TapeAsm.Proofs.Report.Classification
import TapeAsm.Proofs.Report.Consistency
import TapeAsm.Proofs.Report.Messages
import TapeAsm.Proofs.Report.Reading
import TapeAsm.Proofs.Settings.Conflict
import TapeAsm.Proofs.Settings.Effective
import TapeAsm.Proofs.Settings.Loading
import TapeAsm.Proofs.Stage.Sequence
import TapeAsm.Proofs.Text.Quoting
import TapeAsm.Proofs.Text.Table
import TapeAsm.Proofs.Text.Utf8
import TapeAsm.Proofs.Tool.Verdict
import TapeAsm.Proofs.Yaml.Encoding
import TapeAsm.Proofs.Yaml.Reading
import TapeAsm.Report
import TapeAsm.Settings.Discovery
import TapeAsm.Settings.Flags
import TapeAsm.Settings.Language
import TapeAsm.Settings.Loader
import TapeAsm.Settings.Precedence
import TapeAsm.Settings.Resolve
import TapeAsm.Stage
import TapeAsm.Text.Basic
import TapeAsm.Text.Blank
import TapeAsm.Text.Columns
import TapeAsm.Text.Glyph
import TapeAsm.Text.Letter
import TapeAsm.Text.Printable
import TapeAsm.Text.Quoted
import TapeAsm.Tool.Banner
import TapeAsm.Tool.Console
import TapeAsm.Tool.Output
import TapeAsm.Tool.Query
import TapeAsm.Tool.Run
import TapeAsm.Tool.Sample
import TapeAsm.Tool.Start
import TapeAsm.Word
import TapeAsm.Yaml.Base64
import TapeAsm.Yaml.Resolve
import TapeAsm.Yaml.Scalar
import TapeAsm.Yaml.Timestamp
