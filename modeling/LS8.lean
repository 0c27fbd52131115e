import LS8.Text.Numeral
import LS8.Text.Blank
import LS8.Text.Cut
import LS8.Register
import LS8.Fault
import LS8.Access
import LS8.RegisterFile
import LS8.Memory
import LS8.Alu
import LS8.Opcode
import LS8.Instruction
import LS8.Instruction.Decode
import LS8.Instruction.Effect
import LS8.Disassembly
import LS8.Sink
import LS8.Trace
import LS8.Machine.Basic
import LS8.Machine.Step
import LS8.Machine.Progress
import LS8.Machine.Run
import LS8.Machine.Snapshot
import LS8.Machine.Json
import LS8.Fault.Json
import LS8.Json.Value
import LS8.Json.Escape
import LS8.Json.Number
import LS8.Json.Token
import LS8.Json.Reader
import LS8.Json.Writer
import LS8.Json.Shape
import LS8.LoadError
import LS8.Program.Literal
import LS8.Program.Source
import LS8.Program.File
import LS8.CommandLine.Arguments
import LS8.CommandLine.Execute
import LS8.Main
import LS8.Proofs.Machine.Stage
import LS8.Proofs.Machine.RunLoop
import LS8.Proofs.Machine.StepLimit
import LS8.Proofs.Machine.Termination
import LS8.Proofs.Machine.Offers
import LS8.Proofs.Machine.EventLog
import LS8.Proofs.Machine.StraightLine
import LS8.Proofs.Machine.PreciseFault
import LS8.Proofs.Machine.CutShort
import LS8.Proofs.Sink.Lines
import LS8.Proofs.Machine.LimitedRoom
import LS8.Proofs.Program.Literal
import LS8.Proofs.Machine.Resume
import LS8.Proofs.Machine.Tracing
import LS8.Proofs.Machine.Snapshot
import LS8.Proofs.Program.Parse
import LS8.Proofs.Program.Edits
import LS8.Proofs.Instruction.Grammar
import LS8.Proofs.Disassembly.Listing
import LS8.Proofs.Disassembly.Execution
import LS8.Proofs.Disassembly.Window
import LS8.Proofs.Disassembly.Tiling
import LS8.Proofs.Json.Escape
import LS8.Proofs.Json.Scan
import LS8.Proofs.Json.Indentation
import LS8.Proofs.Json.Read
import LS8.Proofs.Json.Shape
import LS8.Proofs.Fault.Json
import LS8.Proofs.Machine.Json
import LS8.Proofs.Machine.Reach
import LS8.Proofs.Machine.FaultCause
import LS8.Proofs.Machine.StateText
import LS8.Proofs.Machine.Operations
import LS8.Proofs.Machine.Terminal
import LS8.Proofs.Machine.FreshStart
import LS8.Proofs.Machine.Locality
import LS8.Proofs.Program.Loading
import LS8.Proofs.Program.Diagnosis
import LS8.Proofs.Program.Rendering
import LS8.Proofs.Machine.AllOrNothing
import LS8.Proofs.Machine.Commit
import LS8.Proofs.Machine.OneInstruction
import LS8.Proofs.Machine.Arithmetic
import LS8.Proofs.CommandLine.Wording
import LS8.Proofs.Machine.SinkView
import LS8.Proofs.CommandLine.Transcript
import LS8.Proofs.Program.Joining
import LS8.Proofs.Fault.Message
import LS8.Proofs.CommandLine.Diagnostic
