import LS8.Alu

/-!
# Opcodes

The bytes that start an instruction. The two top bits of an opcode count the operand bytes behind
it and bit five marks the instructions of the arithmetic unit; the remaining bits tell the
instructions of a group apart. A byte outside `Opcode.all` starts no instruction.
-/

namespace LS8

/-- The operand count that the two top bits of a byte spell. -/
def operandCountField (byte : UInt8) : UInt8 := byte >>> 6

/-- Whether bit five of a byte marks an instruction of the arithmetic unit. -/
def aluField (byte : UInt8) : Bool := byte &&& 0x20 != 0

/-- The instructions that have an opcode. -/
inductive Opcode where
  | hlt
  | ldi
  | prn
  | mul
  deriving DecidableEq, Repr

namespace Opcode

/-- All opcodes, in the order of the instruction table. -/
def all : List Opcode := [hlt, ldi, prn, mul]

/-- The byte that encodes an opcode. -/
def byte : Opcode → UInt8
  | hlt => 0x01
  | ldi => 0x82
  | prn => 0x47
  | mul => 0xA2

/-- The opcode that a byte encodes, if any. -/
def ofByte? (byte : UInt8) : Option Opcode :=
  all.find? (·.byte == byte)

/-- The assembly mnemonic. -/
def mnemonic : Opcode → String
  | hlt => "HLT"
  | ldi => "LDI"
  | prn => "PRN"
  | mul => "MUL"

/-- The number of operand bytes, read off the opcode's own bits. -/
def operandCount (opcode : Opcode) : Nat :=
  (operandCountField opcode.byte).toNat

/-- The length of an instruction in bytes: the opcode and its operands. -/
def instructionLength (opcode : Opcode) : Nat :=
  1 + opcode.operandCount

/-- The operation of the arithmetic unit that an opcode stands for. -/
def aluOp? : Opcode → Option AluOp
  | mul => some .mul
  | _ => none

/-- Every opcode is found by its byte. -/
theorem ofByte?_byte (opcode : Opcode) : ofByte? opcode.byte = some opcode := by
  cases opcode <;> rfl

/-- No two opcodes have one byte. -/
theorem ofByte?_eq_some_iff {byte : UInt8} {opcode : Opcode} :
    ofByte? byte = some opcode ↔ opcode.byte = byte := by
  constructor
  · intro h
    simpa using List.find?_some h
  · rintro rfl
    exact ofByte?_byte opcode

@[simp] theorem instructionLength_hlt : hlt.instructionLength = 1 := rfl

@[simp] theorem instructionLength_ldi : ldi.instructionLength = 3 := rfl

@[simp] theorem instructionLength_prn : prn.instructionLength = 2 := rfl

@[simp] theorem instructionLength_mul : mul.instructionLength = 3 := rfl

end Opcode

end LS8
