import LS8.Machine.Basic

/-!
# Command-line arguments

The command takes one program file and a few options, in any order, read from left to right. The
first argument that decides the outcome does: a request for help or for the version, or an argument
that is not understood. Each option may be given once, and a value belongs to `--max-steps` only.
Behind a lone `--` every argument is an operand, and so is a lone `-`.
-/

namespace LS8

namespace CommandLine

/-- The options of a command that runs a program. -/
structure Options where
  program : String
  /-- Whether to report every instruction on standard error. -/
  trace : Bool := false
  /-- The largest number of instructions to retire. -/
  maxSteps : Option Nat := none
  /-- Whether to print the final state on standard output. -/
  dumpState : Bool := false
  deriving DecidableEq, Repr

/-- What the arguments ask for. -/
inductive Request where
  | run (options : Options)
  | help
  | version
  | invalid
  deriving DecidableEq, Repr

/-- The options seen so far. -/
structure Seen where
  program : Option String := none
  trace : Bool := false
  maxSteps : Option Nat := none
  dumpState : Bool := false
  deriving DecidableEq, Repr

/-- The form of one argument. -/
inductive Argument where
  /-- A lone `--`. -/
  | endOfOptions
  /-- A name behind `--`, with the value behind `=` if there is one. -/
  | long (name : String) (value : Option String)
  /-- Letters behind `-`, of which there is at least one. -/
  | short (letter : Char) (letters : List Char)
  | operand (text : String)
  deriving DecidableEq, Repr

namespace Argument

/-- The form of an argument. -/
def ofText (text : String) : Argument :=
  match text.toList with
  | ['-', '-'] => .endOfOptions
  | '-' :: '-' :: rest =>
    let name := String.ofList (rest.takeWhile (· != '='))
    match rest.dropWhile (· != '=') with
    | [] => .long name none
    | _ :: value => .long name (some (String.ofList value))
  -- a lone dash is an operand
  | '-' :: letter :: letters => .short letter letters
  | _ => .operand text

end Argument

/-- The step limit that a value spells: decimal digits, with a plus sign in front if one likes. -/
def stepLimit? (value : String) : Option Nat :=
  let digits := match value.toList with
    | '+' :: digits => digits
    | digits => digits
  (decimal? digits).filter (· < stepLimitBound)

namespace Seen

/-- Takes an operand, which is the program file. There is only one, and its name is not empty. -/
def addOperand (seen : Seen) (text : String) : Option Seen :=
  if seen.program.isNone && !text.isEmpty then some { seen with program := some text } else none

/-- Takes the value of `--max-steps`. -/
def addMaxSteps (seen : Seen) (value : String) : Option Seen :=
  if seen.maxSteps.isSome then none
  else (stepLimit? value).map fun limit => { seen with maxSteps := some limit }

/-- Takes an option without a value. -/
def addFlag (seen : Seen) (name : String) : Option Seen :=
  -- a flag that is given twice is an error
  if name = "trace" ∧ seen.trace = false then some { seen with trace := true }
  else if name = "dump-state" ∧ seen.dumpState = false then some { seen with dumpState := true }
  else none

/-- The request that all arguments together make. -/
def request (seen : Seen) : Request :=
  match seen.program with
  | some program => .run {
      program, trace := seen.trace, maxSteps := seen.maxSteps, dumpState := seen.dumpState }
  | none => .invalid

end Seen

/-- Reads arguments that are all operands. -/
def readOperands (seen : Seen) : List String → Request
  | [] => seen.request
  | text :: rest =>
    match seen.addOperand text with
    | some seen => readOperands seen rest
    | none => .invalid

/-- Reads arguments after the ones already seen. -/
def readFrom (seen : Seen) : List String → Request
  | [] => seen.request
  | text :: rest =>
    match Argument.ofText text with
    | .endOfOptions => readOperands seen rest
    | .operand text =>
      match seen.addOperand text with
      | some seen => readFrom seen rest
      | none => .invalid
    -- only the first letter decides, whatever follows it
    | .short letter _ =>
      if letter = 'h' then .help else if letter = 'V' then .version else .invalid
    | .long "max-steps" (some value) =>
      match seen.addMaxSteps value with
      | some seen => readFrom seen rest
      | none => .invalid
    | .long "max-steps" none =>
      match rest with
      | [] => .invalid
      | value :: rest =>
        match Argument.ofText value with
        -- the value is the next argument, which must not look like an option
        | .operand value =>
          match seen.addMaxSteps value with
          | some seen => readFrom seen rest
          | none => .invalid
        | _ => .invalid
    | .long name none =>
      if name = "help" then .help
      else if name = "version" then .version
      else
        match seen.addFlag name with
        | some seen => readFrom seen rest
        | none => .invalid
    | .long _ (some _) => .invalid

/-- What the arguments of a command ask for. -/
def readArguments (arguments : List String) : Request :=
  readFrom {} arguments

end CommandLine

end LS8
