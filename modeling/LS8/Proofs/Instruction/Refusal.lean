import LS8.Proofs.Instruction.Encoding

/-!
# What a decoder refuses

A decoder reads the bytes of an instruction in their order and stops at the first one that is wrong.
`Refused` says what is wrong with the bytes at an address, and which fault it makes, in terms of the
bytes alone: there is no byte to fetch, the byte is no opcode, an operand that should name a register
does not, or the memory ends before the instruction does. An operand that is there and wrong comes
before one that is missing, so in the last case the operands that can be read are all in order.

Every fault of the decoder is of one of these kinds (`refused_of_decode`). In particular the only
address past the end of memory that an instruction at a proper address runs into is 256
(`Refused.cut`), because the operands are read one cell after another.
-/

namespace LS8

/-- Where the operands of an instruction lie that name registers, counted from its opcode. -/
def Opcode.registerOffsets : Opcode → List Nat
  | hlt => []
  | ldi => [1]
  | prn => [1]
  | mul => [1, 2]

namespace Memory

/-- The byte at an address, if it should name a register and does not. -/
def misnamedAt? (memory : Memory) (address : Nat) : Option UInt8 :=
  (memory.get? address).filter fun byte => 8 ≤ byte.toNat

/-- The first operand of the instruction at `pc` that should name a register and does not. -/
def misnamed? (memory : Memory) (pc : Nat) (opcode : Opcode) : Option UInt8 :=
  opcode.registerOffsets.findSome? fun offset => memory.misnamedAt? (pc + offset)

end Memory

/-- **Why the bytes at an address are no instruction**, and the fault that reports it. -/
inductive Refused (memory : Memory) (pc : Nat) : Fault → Prop
  | unfetched (beyond : 256 ≤ pc) : Refused memory pc (.addressOutOfRange .memory pc)
  | unassigned (byte : UInt8) (fetched : memory.get? pc = some byte)
      (unassigned : byte ∉ Opcode.all.map Opcode.byte) :
      Refused memory pc (.illegalInstruction byte pc)
  | misnamed (opcode : Opcode) (byte : UInt8) (fetched : memory.get? pc = some opcode.byte)
      (first : memory.misnamed? pc opcode = some byte) :
      Refused memory pc (.addressOutOfRange .registers byte.toNat)
  | cut (opcode : Opcode) (fetched : memory.get? pc = some opcode.byte)
      (named : memory.misnamed? pc opcode = none) (beyond : 256 < pc + opcode.instructionLength) :
      Refused memory pc (.addressOutOfRange .memory 256)

variable {memory : Memory} {address pc : Nat} {fault : Fault}

/-! ### One operand -/

namespace Memory

/-- A byte names no register from eight on. -/
theorem misnamedAt?_eq_some_iff {byte : UInt8} :
    memory.misnamedAt? address = some byte ↔ memory.get? address = some byte ∧ 8 ≤ byte.toNat := by
  unfold misnamedAt?
  rw [Option.filter_eq_some_iff, decide_eq_true_iff]

/-- Where there is no cell, nothing is misnamed. -/
theorem misnamedAt?_of_le (h : 256 ≤ address) : memory.misnamedAt? address = none := by
  unfold misnamedAt?
  rw [get?_eq_none_iff.mpr h]
  rfl

/-- What is decoded as a register names one. -/
theorem misnamedAt?_of_registerOperand {r : Register}
    (h : registerOperand memory address = .ok r) : memory.misnamedAt? address = none := by
  cases hbyte : memory.misnamedAt? address with
  | none => rfl
  | some byte =>
    obtain ⟨hget, hle⟩ := misnamedAt?_eq_some_iff.mp hbyte
    -- the byte is the index of the register, which is below eight
    rw [get?_of_registerOperand h] at hget
    obtain rfl := Option.some.inj hget
    have hlt := r.isLt
    rw [UInt8.toNat_ofNat'] at hle
    omega

end Memory

/-- A read fails only behind the last cell. -/
theorem beyond_of_read (h : memory.read address = .error fault) :
    256 ≤ address ∧ fault = .addressOutOfRange .memory address := by
  unfold Memory.read at h
  split at h
  · cases h
  · next hnone => exact ⟨Memory.get?_eq_none_iff.mp hnone, (Except.error.inj h).symm⟩

/-- An operand that should name a register is missing, or it names none. -/
theorem registerOperand_cases_of_error (h : registerOperand memory address = .error fault) :
    (256 ≤ address ∧ fault = .addressOutOfRange .memory address) ∨
      ∃ byte, memory.misnamedAt? address = some byte ∧
        fault = .addressOutOfRange .registers byte.toNat := by
  -- reading the operand fails, or naming the register does
  rcases bind_eq_error_iff.mp h with h | ⟨byte, hbyte, h⟩
  · exact .inl (beyond_of_read h)
  · unfold Register.ofOperand Register.select at h
    split at h
    · cases h
    · next hnone =>
      refine .inr ⟨byte, Memory.misnamedAt?_eq_some_iff.mpr ⟨Memory.read_eq_ok_iff.mp hbyte, ?_⟩,
        (Except.error.inj h).symm⟩
      exact Register.ofIndex?_eq_none_iff.mp hnone

/-! ### The operands in their order -/

/-- None of the operands before the one at `offset` should name a register and does not. -/
def Memory.NamedBefore (memory : Memory) (pc offset : Nat) : Prop :=
  ∀ earlier, 1 ≤ earlier → earlier < offset → memory.misnamedAt? (pc + earlier) = none

theorem Memory.namedBefore_one : memory.NamedBefore pc 1 := by
  intro earlier hpos hlt
  omega

/-- A first operand that names a register is in order. -/
theorem Memory.namedBefore_two {r : Register} (h : registerOperand memory (pc + 1) = .ok r) :
    memory.NamedBefore pc 2 := by
  intro earlier hpos hlt
  obtain rfl : earlier = 1 := by omega
  exact misnamedAt?_of_registerOperand h

/-- Operands that name registers lie behind the opcode, inside the instruction. -/
theorem Opcode.bounds_of_mem_registerOffsets {opcode : Opcode} :
    ∀ offset ∈ opcode.registerOffsets, 1 ≤ offset ∧ offset < opcode.instructionLength := by
  cases opcode <;> decide

/-- The first operand that names no register is the one that is reported. -/
theorem Memory.misnamed?_of_misnamedAt? {opcode : Opcode} {offset : Nat} {byte : UInt8}
    (hoffset : offset ∈ opcode.registerOffsets) (hearlier : memory.NamedBefore pc offset)
    (h : memory.misnamedAt? (pc + offset) = some byte) : memory.misnamed? pc opcode = some byte := by
  cases opcode with
  | hlt => cases hoffset
  | ldi =>
    obtain rfl := List.mem_singleton.mp hoffset
    simp [misnamed?, Opcode.registerOffsets, h]
  | prn =>
    obtain rfl := List.mem_singleton.mp hoffset
    simp [misnamed?, Opcode.registerOffsets, h]
  | mul =>
    -- two operands name registers here, and the second one is looked at behind the first
    rcases List.mem_cons.mp hoffset with rfl | hoffset
    · simp [misnamed?, Opcode.registerOffsets, h]
    · obtain rfl := List.mem_singleton.mp hoffset
      have hfirst := hearlier 1 (by decide) (by decide)
      simp [misnamed?, Opcode.registerOffsets, hfirst, h]

/-- An operand that is missing lies at address 256, and the ones behind it are missing, too. -/
theorem refused_of_missing {opcode : Opcode} {offset : Nat}
    (hfetched : memory.get? pc = some opcode.byte) (hoffset : offset < opcode.instructionLength)
    (hreached : pc + offset ≤ 256) (hearlier : memory.NamedBefore pc offset)
    (hbeyond : 256 ≤ pc + offset) :
    Refused memory pc (.addressOutOfRange .memory (pc + offset)) := by
  have heq : pc + offset = 256 := Nat.le_antisymm hreached hbeyond
  -- in front of the missing byte all registers are named, and behind it there are no bytes
  have hnamed : memory.misnamed? pc opcode = none := by
    refine List.findSome?_eq_none_iff.mpr fun other hother => ?_
    have hpos := (Opcode.bounds_of_mem_registerOffsets other hother).1
    by_cases hlt : other < offset
    · exact hearlier other hpos hlt
    · exact Memory.misnamedAt?_of_le (by omega)
  rw [heq]
  exact .cut opcode hfetched hnamed (by omega)

/-- An operand that cannot be read is behind the end of the memory or names no register. -/
theorem refused_of_registerOperand {opcode : Opcode} {offset : Nat}
    (hfetched : memory.get? pc = some opcode.byte) (hoffset : offset ∈ opcode.registerOffsets)
    (hreached : pc + offset ≤ 256) (hearlier : memory.NamedBefore pc offset)
    (h : registerOperand memory (pc + offset) = .error fault) : Refused memory pc fault := by
  have hlt := (Opcode.bounds_of_mem_registerOffsets offset hoffset).2
  rcases registerOperand_cases_of_error h with ⟨hbeyond, rfl⟩ | ⟨byte, hbyte, rfl⟩
  · exact refused_of_missing hfetched hlt hreached hearlier hbeyond
  · exact .misnamed opcode byte hfetched (Memory.misnamed?_of_misnamedAt? hoffset hearlier hbyte)

/-! ### An instruction -/

/-- A byte without an opcode is none of the four. -/
theorem byte_notMem_of_ofByte? {byte : UInt8} (h : Opcode.ofByte? byte = none) :
    byte ∉ Opcode.all.map Opcode.byte := by
  intro hmem
  obtain ⟨opcode, -, rfl⟩ := List.mem_map.mp hmem
  rw [Opcode.ofByte?_byte] at h
  cases h

/-- **Every fault of the decoder is explained by the bytes.** -/
theorem refused_of_decode (h : decode memory pc = .error fault) : Refused memory pc fault := by
  rcases bind_eq_error_iff.mp h with h | ⟨byte, hread, h⟩
  · obtain ⟨hbeyond, rfl⟩ := beyond_of_read h
    exact .unfetched hbeyond
  have hfetched := Memory.read_eq_ok_iff.mp hread
  have hpc : pc + 1 ≤ 256 := Memory.lt_of_get? hfetched
  -- behind the opcode the operands are read one after another, and the first that fails counts
  split at h
  · next hop =>
    obtain rfl := Except.error.inj h
    exact .unassigned byte hfetched (byte_notMem_of_ofByte? hop)
  · cases h
  · next hop =>
    obtain rfl := Opcode.ofByte?_eq_some_iff.mp hop
    rcases bind_eq_error_iff.mp h with h | ⟨dest, hdest, h⟩
    · exact refused_of_registerOperand hfetched (by decide) hpc Memory.namedBefore_one h
    have hreached : pc + 2 ≤ 256 := lt_of_registerOperand hdest
    rcases bind_eq_error_iff.mp h with h | ⟨value, -, h⟩
    -- the immediate value may be any byte, so it can only be missing
    · obtain ⟨hbeyond, rfl⟩ := beyond_of_read h
      exact refused_of_missing hfetched (by decide) hreached (Memory.namedBefore_two hdest) hbeyond
    · cases h
  · next hop =>
    obtain rfl := Opcode.ofByte?_eq_some_iff.mp hop
    rcases bind_eq_error_iff.mp h with h | ⟨src, -, h⟩
    · exact refused_of_registerOperand hfetched (by decide) hpc Memory.namedBefore_one h
    · cases h
  · next hop =>
    obtain rfl := Opcode.ofByte?_eq_some_iff.mp hop
    rcases bind_eq_error_iff.mp h with h | ⟨dest, hdest, h⟩
    · exact refused_of_registerOperand hfetched (by decide) hpc Memory.namedBefore_one h
    have hreached : pc + 2 ≤ 256 := lt_of_registerOperand hdest
    rcases bind_eq_error_iff.mp h with h | ⟨src, -, h⟩
    · exact refused_of_registerOperand hfetched (by decide) hreached
        (Memory.namedBefore_two hdest) h
    · cases h

theorem Opcode.instructionLength_le (opcode : Opcode) : opcode.instructionLength ≤ 3 := by
  cases opcode <;> decide

/-- **The numbers that a decoder reports are not far away.** The first byte is no opcode, or an
address or an index is reported that the decoder has formed from its program counter or has read. -/
theorem error_of_decode (h : decode memory pc = .error fault) :
    (∃ opcode, memory.get? pc = some opcode ∧ fault = .illegalInstruction opcode pc) ∨
      ∃ space index, index < pc + 258 ∧ fault = .addressOutOfRange space index := by
  -- three of the four refusals name an address or an index, and all of these are small
  cases refused_of_decode h with
  | unfetched hbeyond => exact .inr ⟨.memory, pc, by omega, rfl⟩
  | unassigned byte hfetched _ => exact .inl ⟨byte, hfetched, rfl⟩
  | misnamed opcode byte _ _ =>
    have hbyte : byte.toNat < 256 := byte.toNat_lt
    exact .inr ⟨.registers, byte.toNat, by omega, rfl⟩
  | cut opcode _ _ hbeyond =>
    have hlength := opcode.instructionLength_le
    exact .inr ⟨.memory, 256, by omega, rfl⟩

end LS8
