import LS8.Machine.Basic
import LS8.Program.Source

/-!
# Program files

A program file is either missing, unreadable for some reason, or a text. Loading one reads and
parses it before the machine is touched.
-/

namespace LS8

/-- What comes of reading a file as text. -/
inductive FileText where
  | missing
  /-- There is a file, but it has no text; `reason` says why. -/
  | unreadable (reason : String)
  | text (content : String)
  deriving DecidableEq, Repr

namespace FileText

/-- What the system says of the failure with a given number. -/
def systemFailure (code : Nat) : String :=
  let meaning := match code with
    | 5 => "Input/output error"
    | 13 => "Permission denied"
    | 20 => "Not a directory"
    | 21 => "Is a directory"
    | 24 => "Too many open files"
    | 36 => "File name too long"
    | 40 => "Too many levels of symbolic links"
    | _ => "Unknown error"
  meaning ++ " (os error " ++ decimal code ++ ")"

/-- A file that the system cannot read, by the number of the failure. -/
def systemUnreadable (code : Nat) : FileText :=
  .unreadable (systemFailure code)

/-- A path with a NUL character, which names no file. -/
def nulInName : FileText :=
  .unreadable "file name contained an unexpected NUL byte"

/-- The text of a file with the given bytes, which have to be UTF-8. -/
def ofBytes (bytes : ByteArray) : FileText :=
  match String.fromUTF8? bytes with
  | some content => .text content
  | none => .unreadable "stream did not contain valid UTF-8"

end FileText

/-- The image in a program file, named `path` in errors. -/
def parseFile (path : String) : FileText → Except LoadError (List UInt8)
  | .missing => .error { kind := .fileNotFound path }
  | .unreadable reason => .error { kind := .unreadable path reason }
  -- only the errors of the text get a location, with the file in it
  | .text content => (parseProgram content).mapError (·.inFile path)

/-- Loads the program in a file into a machine. -/
def Machine.loadFile (m : Machine) (path : String) (file : FileText) :
    Except LoadError Machine := do
  let image ← parseFile path file
  (m.load image).mapError fun fault => { kind := .machine fault }

end LS8
