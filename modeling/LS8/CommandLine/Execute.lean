import LS8.CommandLine.Arguments
import LS8.Machine.Json
import LS8.Machine.Run
import LS8.Program.File

/-!
# Executing a command

A command loads its program, runs it with the printed values going to standard output line by line,
and reports what stopped it on standard error. What it does is a `Transcript`: the texts of both
streams and the exit status. The final state can be printed after a fault too, but not if the
program was never loaded.
-/

namespace LS8

namespace CommandLine

/-- What a command writes, and how it exits. -/
structure Transcript where
  exit : Nat
  stdout : String
  stderr : String
  deriving DecidableEq, Repr

/-- The line of a trace report for an event. Effects are indented below the state line of their
instruction. -/
def traceLine : TraceEvent → String
  | .instructionStart _ _ frame =>
    frame.text ++ match frame.disassemble with
      -- the disassembly stands on the state line
      | some row => "  " ++ row.text
      | none => ""
  | .registerWrite register value => "    " ++ register.name ++ " <- " ++ decimal value.toNat
  | .output value => "    out " ++ decimal value.toNat
  | .halted pc => "    halt at " ++ hexadecimal 2 pc
  | .faultRaised fault pc => "    fault at " ++ hexadecimal 2 pc ++ ": " ++ fault.message

/-- The diagnostics of a run that ended with the machine at `pc`. -/
def runDiagnostics (pc : Nat) : Except Fault RunOutcome → List String
  | .error fault => ["error: " ++ fault.message]
  | .ok outcome =>
    match outcome.stop with
    | .stepLimit =>
      ["warning: step limit of " ++ decimal outcome.steps ++ " reached at pc " ++ hexLiteral pc ++
        " before HLT"]
    | _ => []

/-- The exit status of a run. -/
def runStatus : Except Fault RunOutcome → Nat
  | .error _ => LoadError.exitFailure
  | .ok _ => 0

/-- Lines as a text: each with a line feed behind it. -/
def joinLines (lines : List String) : String :=
  String.join (lines.map (· ++ "\n"))

namespace Options

/-- The configuration of the machine that the program runs on. -/
def config (options : Options) : Config where
  tracing := options.trace
  stepLimit := options.maxSteps

/-- Said when the final state cannot be printed. -/
def dumpFailure : String :=
  "error: failed to write machine state: No space left on device (os error 28)"

/-- The transcript of a run that was answered by `response`, with the final state printed if that
was asked for. -/
def report (options : Options) (response : Response Writer RunOutcome) : Transcript :=
  let lines := response.events.map traceLine
    ++ runDiagnostics response.machine.pc response.result
  if options.dumpState then
    -- the state follows the printed lines, so it shares their room
    match response.sink.write (response.machine.snapshot.indentedText.toList ++ ['\n']) with
    | (true, writer) => {
        exit := runStatus response.result
        stdout := String.ofList writer.text
        stderr := joinLines lines }
    | (false, writer) => {
        exit := LoadError.exitFailure
        stdout := String.ofList writer.text
        stderr := joinLines (lines ++ [dumpFailure]) }
  else {
    exit := runStatus response.result
    stdout := String.ofList response.sink.text
    stderr := joinLines lines }

/-- **Executes a command** whose program file reads as `file`, with standard output going to
`stdout`. -/
def execute (options : Options) (file : FileText) (stdout : Writer) : Transcript :=
  match (Machine.withConfig options.config).loadFile options.program file with
  -- nothing has been printed, since nothing was executed
  | .error error => {
      exit := error.exitStatus
      stdout := String.ofList stdout.text
      stderr := joinLines [error.diagnostic] }
  | .ok machine => options.report (machine.run Sink.decimalLines stdout)

end Options

/-- The answer to a request for the version, which succeeds even if nobody can read it. -/
def versionTranscript (stdout : Writer) : Transcript where
  exit := 0
  stdout := String.ofList (stdout.write "ls8 0.1.0\n".toList).2.text
  stderr := ""

/-- The help text. -/
def usage : String :=
  joinLines [
    "Run an LS-8 program image",
    "",
    "Usage: ls8 [OPTIONS] <PROGRAM>",
    "",
    "Arguments:",
    "  <PROGRAM>        Program file: one binary literal per line, `#` starts a comment",
    "",
    "Options:",
    "      --trace          Print machine state and disassembly to stderr before each instruction",
    "      --max-steps <N>  Stop after retiring N instructions",
    "      --dump-state     Print the final machine state as JSON to stdout, also after a fault",
    "  -h, --help           Print help",
    "  -V, --version        Print version"]

/-- The exit status of a command whose arguments are not understood. -/
def exitUsage : Nat := 2

end CommandLine

end LS8
