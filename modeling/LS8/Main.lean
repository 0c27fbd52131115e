import LS8.CommandLine.Execute

/-!
# The command

Runs a program file from the command line. Everything but reading the file and writing the two
streams is `CommandLine.readArguments` and `CommandLine.Options.execute`.
-/

namespace LS8

namespace CommandLine

/-- A file that the system cannot read. The number of the failure may come with either sign. -/
def refusedFile (code : UInt32) : FileText :=
  .systemUnreadable code.toInt32.toInt.natAbs

/-- What comes of reading a file whose reading fails. -/
def failedRead : IO.Error → FileText
  | .noFileOrDirectory .. => .missing
  | .permissionDenied _ code _ => refusedFile code
  | .inappropriateType _ code _ => refusedFile code
  | .invalidArgument _ code _ => refusedFile code
  | .resourceExhausted _ code _ => refusedFile code
  | .hardwareFault code _ => refusedFile code
  | .otherError code _ => refusedFile code
  | error => .unreadable error.toString

/-- Reads a file as text. -/
def readProgram (path : String) : IO FileText := do
  if path.toList.contains '\x00' then return .nulInName
  try
    return .ofBytes (← IO.FS.readBinFile path)
  catch error =>
    return failedRead error

/-- Writes a transcript to the standard streams. -/
def Transcript.print (transcript : Transcript) : IO UInt32 := do
  let stdout ← IO.getStdout
  let stderr ← IO.getStderr
  stdout.putStr transcript.stdout
  stdout.flush
  stderr.putStr transcript.stderr
  return UInt32.ofNat transcript.exit

/-- Writes the transcript for a standard output that takes everything. Where standard output takes
nothing, the transcript for that is the one that counts, and only its diagnostics are written. -/
def printFor (transcript : Writer → Transcript) : IO UInt32 := do
  try
    (transcript { room := none }).print
  catch _ =>
    let refused := transcript { room := some 0 }
    (← IO.getStderr).putStr refused.stderr
    return UInt32.ofNat refused.exit

end CommandLine

end LS8

/-- The command `ls8`. -/
def main (arguments : List String) : IO UInt32 := do
  match LS8.CommandLine.readArguments arguments with
  | .run options =>
    let file ← LS8.CommandLine.readProgram options.program
    LS8.CommandLine.printFor (options.execute file)
  | .version => LS8.CommandLine.printFor LS8.CommandLine.versionTranscript
  | .help =>
    (← IO.getStdout).putStr LS8.CommandLine.usage
    return 0
  | .invalid =>
    (← IO.getStderr).putStr ("error: invalid arguments\n\n" ++ LS8.CommandLine.usage)
    return UInt32.ofNat LS8.CommandLine.exitUsage
