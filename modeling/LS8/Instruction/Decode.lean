import LS8.Instruction
import LS8.Memory

/-!
# Decoding

`decode` reads the instruction that starts at an address. The checks come in the order of the bytes:
the opcode is fetched and looked up, then each operand is fetched and, where it names a register,
validated, before the next operand is fetched. So the fault reported is that of the first byte that
is wrong.
-/

namespace LS8

/-- The register that the byte at an address names. -/
def registerOperand (memory : Memory) (address : Nat) : Except Fault Register := do
  Register.ofOperand (← memory.read address)

/-- The instruction whose opcode byte lies at `pc`. -/
def decode (memory : Memory) (pc : Nat) : Except Fault Instruction := do
  let byte ← memory.read pc
  match Opcode.ofByte? byte with
  | none => .error (.illegalInstruction byte pc)
  | some .hlt => return .hlt
  -- operands are checked in the order of their bytes
  | some .ldi => return .ldi (← registerOperand memory (pc + 1)) (← memory.read (pc + 2))
  | some .prn => return .prn (← registerOperand memory (pc + 1))
  | some .mul =>
    return .alu .mul (← registerOperand memory (pc + 1)) (← registerOperand memory (pc + 2))

/-- What was read to decode an instruction: its opcode, and its operands in the order of their
bytes. -/
inductive Decoded (memory : Memory) (pc : Nat) : Instruction → Prop
  | hlt (fetched : memory.read pc = .ok Opcode.hlt.byte) : Decoded memory pc .hlt
  | ldi (dest : Register) (value : UInt8) (fetched : memory.read pc = .ok Opcode.ldi.byte)
      (first : registerOperand memory (pc + 1) = .ok dest)
      (second : memory.read (pc + 2) = .ok value) : Decoded memory pc (.ldi dest value)
  | prn (src : Register) (fetched : memory.read pc = .ok Opcode.prn.byte)
      (first : registerOperand memory (pc + 1) = .ok src) : Decoded memory pc (.prn src)
  | mul (dest src : Register) (fetched : memory.read pc = .ok Opcode.mul.byte)
      (first : registerOperand memory (pc + 1) = .ok dest)
      (second : registerOperand memory (pc + 2) = .ok src) : Decoded memory pc (.alu .mul dest src)

/-- Whatever decodes lies in the memory as one of the four instructions. -/
theorem decode_cases {memory : Memory} {pc : Nat} {instruction : Instruction}
    (h : decode memory pc = .ok instruction) : Decoded memory pc instruction := by
  obtain ⟨byte, hbyte, h⟩ := bind_eq_ok_iff.mp h
  -- each opcode decodes to one instruction
  split at h
  · cases h
  · next hop =>
    obtain rfl := Opcode.ofByte?_eq_some_iff.mp hop
    obtain rfl := Except.ok.inj h
    exact .hlt hbyte
  · next hop =>
    obtain rfl := Opcode.ofByte?_eq_some_iff.mp hop
    obtain ⟨dest, hdest, h⟩ := bind_eq_ok_iff.mp h
    obtain ⟨value, hvalue, h⟩ := bind_eq_ok_iff.mp h
    obtain rfl := Except.ok.inj h
    exact .ldi dest value hbyte hdest hvalue
  · next hop =>
    obtain rfl := Opcode.ofByte?_eq_some_iff.mp hop
    obtain ⟨src, hsrc, h⟩ := bind_eq_ok_iff.mp h
    obtain rfl := Except.ok.inj h
    exact .prn src hbyte hsrc
  · next hop =>
    obtain rfl := Opcode.ofByte?_eq_some_iff.mp hop
    obtain ⟨dest, hdest, h⟩ := bind_eq_ok_iff.mp h
    obtain ⟨src, hsrc, h⟩ := bind_eq_ok_iff.mp h
    obtain rfl := Except.ok.inj h
    exact .mul dest src hbyte hdest hsrc

/-- A register operand lies inside the memory. -/
theorem lt_of_registerOperand {memory : Memory} {address : Nat} {r : Register}
    (h : registerOperand memory address = .ok r) : address < 256 := by
  obtain ⟨byte, hbyte, -⟩ := bind_eq_ok_iff.mp h
  exact Memory.lt_of_read hbyte

/-- **A decoded instruction lies inside the memory.** Its last byte was read, so decoding never
reaches past the end. -/
theorem add_length_le_of_decode {memory : Memory} {pc : Nat} {instruction : Instruction}
    (h : decode memory pc = .ok instruction) : pc + instruction.length ≤ 256 := by
  cases decode_cases h with
  | hlt hopcode => exact Memory.lt_of_read hopcode
  | ldi dest value _ _ hvalue =>
    rw [Instruction.length_ldi]
    exact Memory.lt_of_read hvalue
  | prn src _ hsrc =>
    rw [Instruction.length_prn]
    exact lt_of_registerOperand hsrc
  | mul dest src _ _ hsrc =>
    rw [Instruction.length_alu]
    exact lt_of_registerOperand hsrc

end LS8
