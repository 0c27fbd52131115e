import LS8.Opcode

/-!
# Instructions

A decoded instruction has valid registers by its type. Its encoded form is its opcode byte followed
by its operand bytes (`Instruction.encode`), and its length is the one that the opcode announces.

The instruction set assigns one opcode to the arithmetic unit, the one for multiplication; every
`alu` instruction is encoded with it.
-/

namespace LS8

/-- An instruction with validated operands. -/
inductive Instruction where
  /-- Stop the machine. -/
  | hlt
  /-- Put an immediate byte into a register. -/
  | ldi (dest : Register) (value : UInt8)
  /-- Send a register to the output. -/
  | prn (src : Register)
  /-- Combine two registers and store the result in the first. -/
  | alu (op : AluOp) (dest src : Register)
  deriving DecidableEq, Repr

namespace Instruction

/-- The opcode under which an instruction is encoded. -/
def opcode : Instruction → Opcode
  | hlt => .hlt
  | ldi .. => .ldi
  | prn _ => .prn
  | alu .. => .mul

/-- The encoded length in bytes, which is also how far a retired instruction moves the program
counter. -/
def length (instruction : Instruction) : Nat :=
  instruction.opcode.instructionLength

/-- The operand bytes, in the order in which they follow the opcode. -/
def operandBytes : Instruction → List UInt8
  | hlt => []
  | ldi dest value => [UInt8.ofNat dest.val, value]
  | prn src => [UInt8.ofNat src.val]
  | alu _ dest src => [UInt8.ofNat dest.val, UInt8.ofNat src.val]

/-- The bytes of an instruction. -/
def encode (instruction : Instruction) : List UInt8 :=
  instruction.opcode.byte :: instruction.operandBytes

/-- The operands as a listing shows them. -/
def operandText : Instruction → String
  | hlt => ""
  | ldi dest value => dest.name ++ ", " ++ decimal value.toNat
  | prn src => src.name
  | alu _ dest src => dest.name ++ ", " ++ src.name

@[simp] theorem length_hlt : hlt.length = 1 :=
  Opcode.instructionLength_hlt

@[simp] theorem length_ldi (dest : Register) (value : UInt8) : (ldi dest value).length = 3 :=
  Opcode.instructionLength_ldi

@[simp] theorem length_prn (src : Register) : (prn src).length = 2 :=
  Opcode.instructionLength_prn

@[simp] theorem length_alu (op : AluOp) (dest src : Register) : (alu op dest src).length = 3 :=
  Opcode.instructionLength_mul

/-- An encoded instruction has the length that its opcode announces. -/
@[simp] theorem length_encode (instruction : Instruction) :
    instruction.encode.length = instruction.length := by
  cases instruction <;> simp [encode, operandBytes]

/-- No instruction is empty, so a sweep over the memory gets on. -/
theorem length_pos (instruction : Instruction) : 0 < instruction.length := by
  cases instruction <;> simp

/-- No instruction is longer than three bytes, so three cells are enough to decode one. -/
theorem length_le (instruction : Instruction) : instruction.length ≤ 3 := by
  cases instruction <;> simp

end Instruction

end LS8
