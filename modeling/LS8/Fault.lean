import LS8.Register

/-!
# Faults

Everything that can go wrong inside a machine, as causes rather than texts. Each fault has one
diagnostic message (`Fault.message`), one class for bookkeeping (`Fault.faultClass`) and, where the
fault is tied to an instruction, the program counter of that instruction (`Fault.pc?`).
-/

namespace LS8

/-- The two storage spaces whose accesses are bounds-checked. -/
inductive AddressSpace where
  | memory
  | registers
  deriving DecidableEq, Repr

namespace AddressSpace

/-- The word for a cell of the space in diagnostics. -/
def noun : AddressSpace → String
  | memory => "memory"
  | registers => "register"

end AddressSpace

/-- The reasons for which a machine stops or refuses a request. -/
inductive Fault where
  /-- An access outside a storage space. -/
  | addressOutOfRange (space : AddressSpace) (address : Nat)
  /-- A value that does not fit in a memory cell. -/
  | invalidOperand (value : Nat)
  /-- A name that no arithmetic operation has. -/
  | unsupportedOperation (operation : String)
  /-- A division whose divisor register `src` holds zero. -/
  | divisionByZero (dest src : Register)
  /-- A byte outside the instruction set, found where an instruction should start. -/
  | illegalInstruction (opcode : UInt8) (pc : Nat)
  /-- A program image longer than the memory. -/
  | programTooLarge (length capacity : Nat)
  /-- The output sink refused the value of the print instruction at `pc`. -/
  | outputFailed (pc : Nat)
  /-- A snapshot that describes no machine. -/
  | snapshotLayout (reason : String)
  deriving DecidableEq, Repr

/-- The classes into which diagnostics sort faults. -/
inductive FaultClass where
  /-- Accesses out of bounds. -/
  | memory
  /-- Values too wide for a cell. -/
  | operand
  /-- Operations that the arithmetic unit refused. -/
  | alu
  /-- Bytes that are no instruction. -/
  | decode
  /-- Images and snapshots that cannot be installed. -/
  | load
  /-- Output that was not accepted. -/
  | output
  deriving DecidableEq, Repr

namespace Fault

/-- The diagnostic text of a fault. -/
def message : Fault → String
  | addressOutOfRange space address =>
    space.noun ++ " address " ++ hexLiteral address ++ " out of range"
  | invalidOperand value => "operand value " ++ decimal value ++ " does not fit in a byte"
  | unsupportedOperation operation => "unsupported ALU operation `" ++ operation ++ "`"
  | divisionByZero dest src => "division by zero: " ++ dest.name ++ " / " ++ src.name
  | illegalInstruction opcode pc =>
    "illegal instruction " ++ bitsLiteral opcode ++ " at pc " ++ hexLiteral pc
  | programTooLarge length capacity =>
    "program of " ++ decimal length ++ " bytes exceeds memory capacity of " ++ decimal capacity ++
      " bytes"
  | outputFailed pc => "output sink failed at pc " ++ hexLiteral pc
  | snapshotLayout reason => "snapshot layout mismatch: " ++ reason

/-- The class of a fault. -/
def faultClass : Fault → FaultClass
  | addressOutOfRange .. => .memory
  | invalidOperand .. => .operand
  | unsupportedOperation .. => .alu
  | divisionByZero .. => .alu
  | illegalInstruction .. => .decode
  | programTooLarge .. => .load
  | outputFailed .. => .output
  | snapshotLayout .. => .load

/-- The program counter that a fault carries, for the faults tied to one instruction. -/
def pc? : Fault → Option Nat
  | illegalInstruction _ pc => some pc
  | outputFailed pc => some pc
  | _ => none

end Fault

end LS8
