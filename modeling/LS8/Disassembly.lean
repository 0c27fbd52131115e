import LS8.Instruction.Decode

/-!
# Disassembly

One row of a listing for each address: the instruction that starts there or, where none does, the
raw byte with a note of what is wrong. `disassemble` has a row for every address inside the memory.
A listing (`Memory.listing`) sweeps the memory row by row, each row starting where the one before it
ended.
-/

namespace LS8

/-- One row of a disassembly listing. -/
structure DisassemblyRow where
  /-- The address of the first byte. -/
  address : Nat
  /-- The number of bytes covered, one for a byte that is no instruction. -/
  length : Nat
  /-- The mnemonic, or `.byte`. -/
  mnemonic : String
  /-- The operands, possibly none. -/
  operands : String
  /-- Whether no instruction starts at the address. -/
  isIllegal : Bool
  deriving DecidableEq

namespace DisassemblyRow

/-- The row as a line of text. -/
def text (row : DisassemblyRow) : String :=
  if row.operands.isEmpty then row.mnemonic else row.mnemonic ++ " " ++ row.operands

/-- The row of a decoded instruction. -/
def ofInstruction (address : Nat) (instruction : Instruction) : DisassemblyRow where
  address := address
  length := instruction.length
  mnemonic := instruction.opcode.mnemonic
  operands := instruction.operandText
  isIllegal := false

/-- What a row says about a byte that could not be decoded. -/
def note : Fault → String
  | .illegalInstruction .. => "ILLEGAL"
  | fault => fault.message

/-- The row of a byte at which decoding failed. -/
def ofFault (address : Nat) (byte : UInt8) (fault : Fault) : DisassemblyRow where
  address := address
  length := 1
  mnemonic := ".byte"
  operands := hexLiteral byte.toNat ++ " ; " ++ note fault
  isIllegal := true

end DisassemblyRow

/-- The row at an address, or nothing past the end of memory. -/
def disassemble (memory : Memory) (address : Nat) : Option DisassemblyRow :=
  (memory.get? address).map fun byte =>
    match decode memory address with
    | .ok instruction => .ofInstruction address instruction
    | .error fault => .ofFault address byte fault

/-- There is a row for every address in the memory and for no other one. -/
theorem disassemble_eq_none_iff {memory : Memory} {address : Nat} :
    disassemble memory address = none ↔ 256 ≤ address := by
  simp [disassemble, Memory.get?_eq_none_iff]

/-- Every row covers at least one byte and none past the end of memory. -/
theorem disassemble_bounds {memory : Memory} {address : Nat} {row : DisassemblyRow}
    (h : disassemble memory address = some row) :
    row.address = address ∧ 0 < row.length ∧ address + row.length ≤ 256 := by
  obtain ⟨byte, hbyte, hrow⟩ := Option.map_eq_some_iff.mp h
  have hlt := Memory.lt_of_get? hbyte
  split at hrow <;> subst hrow
  · rename_i instruction hi
    exact ⟨rfl, instruction.length_pos, add_length_le_of_decode hi⟩
  · exact ⟨rfl, Nat.one_pos, hlt⟩

/-- The rows of a linear sweep: the row at `address`, then the row where it ends, and so on to the
end of memory. -/
def Memory.listing (memory : Memory) (address : Nat) : List DisassemblyRow :=
  match _h : disassemble memory address with
  | none => []
  -- the next row starts where this one ends
  | some row => row :: memory.listing (address + row.length)
termination_by 256 - address
decreasing_by
  have := disassemble_bounds ‹_›
  omega

end LS8
