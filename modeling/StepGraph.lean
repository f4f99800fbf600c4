import StepGraph.Build
import StepGraph.Cbor
import StepGraph.Cbor.Program
import StepGraph.Cbor.Reader
import StepGraph.CommandLine
import StepGraph.CommandLine.Options
import StepGraph.Debugger
import StepGraph.Double
import StepGraph.Double.Literal
import StepGraph.Double.Printed
import StepGraph.Draft
import StepGraph.Evaluation
import StepGraph.Expr
import StepGraph.Fault
import StepGraph.FileTree
import StepGraph.Graph
import StepGraph.Graph.Lines
import StepGraph.Graph.Validity
import StepGraph.Integer
import StepGraph.Integer.Marked
import StepGraph.Label
import StepGraph.LineSource
import StepGraph.Log
import StepGraph.Machine
import StepGraph.Main
import StepGraph.Memory
import StepGraph.Path
import StepGraph.ProgramFile
import StepGraph.Settings
import StepGraph.Shell
import StepGraph.Terminal
import StepGraph.Text
import StepGraph.Text.Base64
import StepGraph.Text.Blank
import StepGraph.Text.CharCode
import StepGraph.Text.Control
import StepGraph.Text.Printable
import StepGraph.Text.Quoted
import StepGraph.Text.Utf8
import StepGraph.Timestamp
import StepGraph.Toml
import StepGraph.Toml.Key
import StepGraph.Toml.Number
import StepGraph.Toml.Reader
import StepGraph.Toml.Table
import StepGraph.Value
import StepGraph.Yaml.Character
import StepGraph.Yaml.Cursor
import StepGraph.Yaml.Node
import StepGraph.Yaml.Program
import StepGraph.Yaml.Scalar
import StepGraph.Yaml.Style
import StepGraph.Yaml.Token
import StepGraph.Yaml.Token.Lexer
import StepGraph.Yaml.Token.Scalar
import StepGraph.Yaml.Writer
import StepGraph.Proofs.Course
import StepGraph.Proofs.Debugger.Calls
import StepGraph.Proofs.Debugger.Soundness
import StepGraph.Proofs.Debugger.Isolation
import StepGraph.Proofs.Build.Checks
import StepGraph.Proofs.Build.Layout
import StepGraph.Proofs.Build.Nodes
import StepGraph.Proofs.Build.Meaning
import StepGraph.Proofs.Debugger.Transparency
import StepGraph.Proofs.Shell.Commands
import StepGraph.Proofs.Debugger.Restoration
import StepGraph.Proofs.Workbench
import StepGraph.Proofs.Debugger.Breakpoints
import StepGraph.Proofs.Debugger.Stepping
import StepGraph.Proofs.Graph.Severing
import StepGraph.Proofs.Build.Grammar
import StepGraph.Proofs.Build.Acceptance
import StepGraph.Proofs.Cbor.Items
import StepGraph.Proofs.Cbor.Records
import StepGraph.Proofs.Cbor.RoundTrip
import StepGraph.Proofs.Compilation
import StepGraph.Proofs.Memory
import StepGraph.Proofs.Debugger.LifeCycle
import StepGraph.Proofs.Build.Shape
import StepGraph.Proofs.Debugger.Replay
import StepGraph.Proofs.Shell.Dialogue
import StepGraph.Proofs.Text.Lines
import StepGraph.Proofs.Shell.Inspection
import StepGraph.Proofs.Shell.SharedConsole
import StepGraph.Proofs.Memory.Stability
import StepGraph.Proofs.Machine.Footprint
import StepGraph.Proofs.Graph.Independence
import StepGraph.Proofs.Machine.Failure
import StepGraph.Proofs.Graph.Rejoining
import StepGraph.Proofs.Build.Recovery
import StepGraph.Proofs.Debugger.BreakpointSet
import StepGraph.Proofs.Double.Zero
import StepGraph.Proofs.Operators
import StepGraph.Proofs.Text.Opening
import StepGraph.Proofs.Integer.Conversion
import StepGraph.Proofs.Integer.Printed
import StepGraph.Proofs.Console
import StepGraph.Proofs.Double.Numeral
import StepGraph.Proofs.Double.Words
import StepGraph.Proofs.Double.Conversion
import StepGraph.Proofs.Integer.Arithmetic
import StepGraph.Proofs.Comparison
import StepGraph.Proofs.Path
import StepGraph.Proofs.FileTree
import StepGraph.Proofs.Settings
import StepGraph.Proofs.Terminal.Lines
import StepGraph.Proofs.Terminal.Debugging
import StepGraph.Proofs.Terminal.Sessions
