import LS8.Access
import LS8.Alu
import LS8.Json.Shape

/-!
# Faults in JSON

A fault is a variant named after its cause, with a record of its details. Addresses, lengths and
program counters are read up to 64 bits and operand values up to 32 bits; wider numbers are refused.
-/

namespace LS8

namespace AddressSpace

/-- The spaces. -/
def all : List AddressSpace := [memory, registers]

/-- The name of a space in JSON. -/
def tag : AddressSpace → String
  | memory => "Memory"
  | registers => "Registers"

/-- A space in JSON. -/
def toJson (space : AddressSpace) : Json := .ofText space.tag

/-- The space that a JSON value names. -/
def ofJson? (value : Json) : Option AddressSpace := value.unit? all tag

end AddressSpace

namespace FaultClass

/-- The classes. -/
def all : List FaultClass := [memory, operand, alu, decode, load, output]

/-- The name of a class in JSON. -/
def tag : FaultClass → String
  | memory => "Memory"
  | operand => "Operand"
  | alu => "Alu"
  | decode => "Decode"
  | load => "Load"
  | output => "Output"

/-- A class in JSON. -/
def toJson (c : FaultClass) : Json := .ofText c.tag

/-- The class that a JSON value names. -/
def ofJson? (value : Json) : Option FaultClass := value.unit? all tag

end FaultClass

namespace Register

/-- A register in JSON. -/
def toJson (r : Register) : Json := .ofText r.name

/-- The register that a JSON value names. -/
def ofJson? (value : Json) : Option Register := value.unit? all name

end Register

namespace AluOp

/-- The name of an operation in JSON. -/
def tag : AluOp → String
  | add => "Add"
  | sub => "Sub"
  | mul => "Mul"
  | div => "Div"

/-- An operation in JSON. -/
def toJson (op : AluOp) : Json := .ofText op.tag

/-- The operation that a JSON value names. -/
def ofJson? (value : Json) : Option AluOp := value.unit? all tag

end AluOp

namespace Fault

/-- The name of a fault's variant. -/
def tag : Fault → String
  | addressOutOfRange .. => "AddressOutOfRange"
  | invalidOperand .. => "InvalidOperand"
  | unsupportedOperation .. => "UnsupportedOperation"
  | divisionByZero .. => "DivisionByZero"
  | illegalInstruction .. => "IllegalInstruction"
  | programTooLarge .. => "ProgramTooLarge"
  | outputFailed .. => "OutputFailed"
  | snapshotLayout .. => "SnapshotLayout"

/-- The details of a fault, as a record. -/
def details : Fault → Json
  | addressOutOfRange space address =>
    .record [("space", space.toJson), ("address", .ofNat address)]
  | invalidOperand value => .record [("value", .ofNat value)]
  | unsupportedOperation operation => .record [("op", .ofText operation)]
  | divisionByZero dest src => .record [("dest", dest.toJson), ("src", src.toJson)]
  | illegalInstruction opcode pc => .record [("opcode", .ofByte opcode), ("pc", .ofNat pc)]
  | programTooLarge length capacity =>
    .record [("len", .ofNat length), ("capacity", .ofNat capacity)]
  | outputFailed pc => .record [("pc", .ofNat pc)]
  | snapshotLayout reason => .record [("reason", .ofText reason)]

/-- A fault in JSON. -/
def toJson (fault : Fault) : Json :=
  .tagged fault.tag fault.details

/-- The fault with a given tag and details. -/
def ofDetails? (tag : String) (details : Json) : Option Fault :=
  match tag with
  | "AddressOutOfRange" =>
    match details.fields? ["space", "address"] with
    | some [some space, some address] => do
      return addressOutOfRange (← AddressSpace.ofJson? space) (← address.natBelow? addressBound)
    | _ => none
  | "InvalidOperand" =>
    match details.fields? ["value"] with
    | some [some value] => do return invalidOperand (← value.natBelow? operandBound)
    | _ => none
  | "UnsupportedOperation" =>
    match details.fields? ["op"] with
    | some [some operation] => do return unsupportedOperation (← operation.text?)
    | _ => none
  | "DivisionByZero" =>
    match details.fields? ["dest", "src"] with
    | some [some dest, some src] => do
      return divisionByZero (← Register.ofJson? dest) (← Register.ofJson? src)
    | _ => none
  | "IllegalInstruction" =>
    match details.fields? ["opcode", "pc"] with
    | some [some opcode, some pc] => do
      return illegalInstruction (← opcode.byte?) (← pc.natBelow? addressBound)
    | _ => none
  | "ProgramTooLarge" =>
    match details.fields? ["len", "capacity"] with
    | some [some length, some capacity] => do
      return programTooLarge (← length.natBelow? addressBound) (← capacity.natBelow? addressBound)
    | _ => none
  | "OutputFailed" =>
    match details.fields? ["pc"] with
    | some [some pc] => do return outputFailed (← pc.natBelow? addressBound)
    | _ => none
  | "SnapshotLayout" =>
    match details.fields? ["reason"] with
    | some [some reason] => do return snapshotLayout (← reason.text?)
    | _ => none
  | _ => none

/-- The fault that a JSON value spells. -/
def ofJson? (value : Json) : Option Fault := do
  let (tag, content) ← value.variant?
  ofDetails? tag (← content)

end Fault

end LS8
