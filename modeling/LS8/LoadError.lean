import LS8.Fault

/-!
# Load errors

Why a program could not be loaded, and where. Errors of a program text carry the line they are tied
to and, once it is known, the file; errors of the file itself carry no location. As a diagnostic, an
error starts with its location in the usual form, `program.ls8:4: error: …`.
-/

namespace LS8

/-- A place in a program text. -/
structure SourceLocation where
  /-- The file, if the text came from one. -/
  file : Option String := none
  /-- The line, counted from one. -/
  line : Nat
  deriving DecidableEq, Repr

namespace SourceLocation

/-- The location as diagnostics show it. -/
def text (location : SourceLocation) : String :=
  match location.file with
  | some file => file ++ ":" ++ decimal location.line
  | none => "line " ++ decimal location.line

end SourceLocation

/-- The reasons for which a program cannot be loaded. -/
inductive LoadErrorKind where
  | fileNotFound (path : String)
  /-- The program file could not be read; `reason` is the text of the failure. -/
  | unreadable (path reason : String)
  /-- A token that is no binary literal. -/
  | invalidLiteral (token : String)
  /-- A binary literal whose value is too wide even to report. -/
  | literalOverflow (token : String)
  /-- A value or an image that the machine refuses. -/
  | machine (fault : Fault)
  deriving DecidableEq, Repr

namespace LoadErrorKind

/-- The diagnostic text of a reason. -/
def message : LoadErrorKind → String
  | fileNotFound path => "file not found: " ++ path
  | unreadable path reason => "failed to read " ++ path ++ ": " ++ reason
  | invalidLiteral token => "invalid binary literal `" ++ token ++ "`"
  | literalOverflow token => "binary literal `" ++ token ++ "` does not fit in a byte"
  | machine fault => fault.message

end LoadErrorKind

/-- A reason with the place it is tied to, if there is one. -/
structure LoadError where
  kind : LoadErrorKind
  location : Option SourceLocation := none
  deriving DecidableEq, Repr

namespace LoadError

/-- An error at a line of a text. -/
def atLine (kind : LoadErrorKind) (line : Nat) : LoadError :=
  { kind, location := some { line } }

/-- Names the file in the location of an error. An error without a location stays as it is. -/
def inFile (error : LoadError) (file : String) : LoadError :=
  { error with location := error.location.map fun location => { location with file := some file } }

/-- The error as a text: its location, if any, and its reason. -/
def text (error : LoadError) : String :=
  match error.location with
  | some location => location.text ++ ": " ++ error.kind.message
  | none => error.kind.message

/-- The error as a diagnostic. -/
def diagnostic (error : LoadError) : String :=
  match error.location with
  | some location => location.text ++ ": error: " ++ error.kind.message
  | none => "error: " ++ error.kind.message

/-- The exit status of a command that fails because a program file does not exist. -/
def exitFileNotFound : Nat := 2

/-- The exit status of a command that fails in any other way. -/
def exitFailure : Nat := 1

/-- The exit status of a command that fails with the error. -/
def exitStatus (error : LoadError) : Nat :=
  match error.kind with
  -- a missing file has a status of its own
  | .fileNotFound _ => exitFileNotFound
  | _ => exitFailure

end LoadError

end LS8
