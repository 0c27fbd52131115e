import LS8.Instruction.Decode
import LS8.Proofs.Memory.Image

/-!
# Encoded instructions in memory

Decoding and encoding go opposite ways between the bytes of the memory and an instruction. What was
decoded is what stands there: the cells from the program counter on hold the encoded form of the
instruction (`holds_encode_of_decode`), so a decoded instruction tells the bytes that it came from.
-/

namespace LS8

variable {memory : Memory} {address pc : Nat}

/-! ### Operands -/

/-- The byte of a register is taken as an operand. -/
theorem registerOperand_of_get? {r : Register}
    (h : memory.get? address = some (UInt8.ofNat r.val)) :
    registerOperand memory address = .ok r := by
  have hr : (UInt8.ofNat r.val).toNat = r.val := by
    have hlt := r.isLt
    rw [UInt8.toNat_ofNat']
    omega
  refine bind_eq_ok_iff.mpr ⟨_, Memory.read_eq_ok_iff.mpr h, ?_⟩
  rw [Register.ofOperand, hr, Register.select_val]

/-- A register operand is the byte that its register has as an index. -/
theorem get?_of_registerOperand {r : Register} (h : registerOperand memory address = .ok r) :
    memory.get? address = some (UInt8.ofNat r.val) := by
  obtain ⟨byte, hbyte, hselect⟩ := bind_eq_ok_iff.mp h
  rw [Register.ofOperand, Register.select] at hselect
  split at hselect
  · next q hq =>
    obtain rfl := Except.ok.inj hselect
    rw [Register.ofIndex?_eq_some_iff.mp hq, UInt8.ofNat_toNat]
    exact Memory.read_eq_ok_iff.mp hbyte
  · cases hselect

/-! ### Instructions -/

/-- Behind the last cell there is nothing to decode. -/
theorem decode_of_le (h : 256 ≤ pc) :
    decode memory pc = .error (.addressOutOfRange .memory pc) := by
  unfold decode
  rw [Memory.read_of_le h]
  rfl

/-- **A decoded instruction stands in memory.** -/
theorem holds_encode_of_decode {i : Instruction} (h : decode memory pc = .ok i) :
    memory.Holds pc i.encode := by
  -- every byte of the encoding was read while decoding
  cases decode_cases h with
  | hlt hopcode => exact ⟨Memory.read_eq_ok_iff.mp hopcode, trivial⟩
  | ldi dest value hopcode hdest hvalue =>
    exact ⟨Memory.read_eq_ok_iff.mp hopcode, get?_of_registerOperand hdest,
      Memory.read_eq_ok_iff.mp hvalue, trivial⟩
  | prn src hopcode hsrc =>
    exact ⟨Memory.read_eq_ok_iff.mp hopcode, get?_of_registerOperand hsrc, trivial⟩
  | mul dest src hopcode hdest hsrc =>
    exact ⟨Memory.read_eq_ok_iff.mp hopcode, get?_of_registerOperand hdest,
      get?_of_registerOperand hsrc, trivial⟩

end LS8
