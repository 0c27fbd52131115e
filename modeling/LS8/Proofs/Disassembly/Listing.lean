import LS8.Disassembly
import LS8.Proofs.Instruction.Encoding
import LS8.Proofs.Text.Words

/-!
# Listings lose nothing

A row of a listing names neither an address nor an opcode byte, but its text tells all the bytes
that it covers. `readRow` reads them off: the word in front tells the opcode, and a row without a
mnemonic is a single byte, whose two digits stand in front of the note on what is wrong with it.

One row is read back to the cells that it covers (`holds_readRow`), so a whole listing is read back
to the memory from its first address on (`Memory.read_listing`). Equal listings are therefore
listings of equal cells (`Memory.listing_lossless`).
-/

namespace LS8

/-! ### Reading a row -/

/-- The opcode with a given mnemonic, if there is one. -/
def Opcode.ofMnemonic? (word : List Char) : Option Opcode :=
  all.find? (·.mnemonic.toList == word)

/-- The byte that the decimal digits at the front of a text spell. -/
def leadingByte (cs : List Char) : UInt8 :=
  UInt8.ofNat (Nat.ofDigitChars 10 (cs.takeWhile Char.isDigit) 0)

/-- The operand bytes of an instruction, from its operands as a row shows them. A register is a
letter and an index. -/
def readOperands (operands : List Char) : Opcode → List UInt8
  | .hlt => []
  | .ldi => [leadingByte (operands.drop 1), leadingByte (behindSpace operands)]
  | .prn => [leadingByte (operands.drop 1)]
  | .mul => [leadingByte (operands.drop 1), leadingByte ((behindSpace operands).drop 1)]

/-- The bytes that a row stands for. -/
def readRow (text : List Char) : List UInt8 :=
  match Opcode.ofMnemonic? (text.takeWhile (· ≠ ' ')) with
  | some opcode => opcode.byte :: readOperands (behindSpace text) opcode
  | none => [UInt8.ofNat (hexValue (((behindSpace text).drop 2).take 2))]

/-! ### The parts of a text -/

/-- The word in front of a row is its mnemonic, and the operands stand behind the first space. -/
theorem DisassemblyRow.parts_text (row : DisassemblyRow) (hword : ' ' ∉ row.mnemonic.toList) :
    row.text.toList.takeWhile (· ≠ ' ') = row.mnemonic.toList ∧
      behindSpace row.text.toList = row.operands.toList := by
  unfold text
  by_cases h : row.operands.isEmpty = true
  · -- there is no space in the text then
    have hall := decide_ne_space hword
    have hoperands : row.operands = "" := String.isEmpty_iff.mp h
    rw [if_pos h, behindSpace, List.takeWhile_eq_self_iff.mpr hall,
      List.dropWhile_eq_nil_iff.mpr hall, hoperands]
    exact ⟨rfl, rfl⟩
  · have htext : (row.mnemonic ++ " " ++ row.operands).toList =
        row.mnemonic.toList ++ ' ' :: row.operands.toList := by simp
    rw [if_neg h, htext]
    exact ⟨takeWhile_space hword _, behindSpace_append hword _⟩

/-- Digits are read up to the first character that is none. -/
theorem leadingByte_toDigits (n : Nat) {rest : List Char}
    (hrest : ∀ c ∈ rest.head?, c.isDigit = false) :
    leadingByte (Nat.toDigits 10 n ++ rest) = UInt8.ofNat n := by
  have hdigits : ∀ c ∈ Nat.toDigits 10 n, c.isDigit = true := fun c hc =>
    isDigit_of_mem_toDigits hc
  have hstop : rest.takeWhile Char.isDigit = [] := by
    cases rest with
    | nil => rfl
    | cons c rest => rw [List.takeWhile_cons, hrest c rfl, if_neg Bool.false_ne_true]
  unfold leadingByte
  rw [List.takeWhile_append_of_pos hdigits, hstop, List.append_nil, Nat.ofDigitChars_ten_toDigits]

/-- A byte is read back from its numeral. -/
theorem leadingByte_decimal (byte : UInt8) : leadingByte (decimal byte.toNat).toList = byte := by
  have hnil : ∀ c ∈ ([] : List Char).head?, c.isDigit = false := by
    intro c hc
    cases hc
  rw [toList_decimal, ← List.append_nil (Nat.toDigits 10 byte.toNat), leadingByte_toDigits _ hnil,
    UInt8.ofNat_toNat]

/-- A register operand is read back, alone or in front of another operand. -/
theorem leadingByte_name (r : Register) (second : List Char) :
    leadingByte (r.name.toList.drop 1) = UInt8.ofNat r.val ∧
      leadingByte ((r.name.toList ++ ',' :: second).drop 1) = UInt8.ofNat r.val := by
  -- the digits end with the text, or at the comma between the operands
  have hnil : ∀ c ∈ ([] : List Char).head?, c.isDigit = false := by
    intro c hc
    cases hc
  have hcomma : ∀ c ∈ (',' :: second).head?, c.isDigit = false := by
    intro c hc
    obtain rfl := Option.some.inj hc
    decide
  rw [toList_name, toList_decimal]
  constructor
  · rw [List.drop_succ_cons, List.drop_zero, ← List.append_nil (Nat.toDigits 10 r.val)]
    exact leadingByte_toDigits r.val hnil
  · rw [List.cons_append, List.drop_succ_cons, List.drop_zero]
    exact leadingByte_toDigits r.val hcomma

/-- A second operand stands behind a comma and a space. -/
theorem behindSpace_operands (r : Register) (second : List Char) :
    behindSpace (r.name.toList ++ ',' :: ' ' :: second) = second := by
  have hword : ' ' ∉ r.name.toList ++ [','] := by
    rw [List.mem_append, not_or]
    exact ⟨space_notMem_name r, by decide⟩
  have hsplit : r.name.toList ++ ',' :: ' ' :: second =
      (r.name.toList ++ [',']) ++ ' ' :: second := by simp
  rw [hsplit, behindSpace_append hword]

/-! ### Rows are read back -/

/-- An opcode is read back from its mnemonic. -/
theorem Opcode.ofMnemonic?_mnemonic (opcode : Opcode) :
    ofMnemonic? opcode.mnemonic.toList = some opcode := by
  cases opcode with
  | hlt => decide
  | ldi => decide
  | prn => decide
  | mul => decide

theorem Opcode.space_notMem_mnemonic (opcode : Opcode) : ' ' ∉ opcode.mnemonic.toList := by
  cases opcode with
  | hlt => decide
  | ldi => decide
  | prn => decide
  | mul => decide

/-- The operands of an instruction are read back from their text. -/
theorem readOperands_operandText (i : Instruction) :
    readOperands i.operandText.toList i.opcode = i.operandBytes := by
  cases i with
  | hlt => rfl
  | ldi dest value =>
    -- two operands are separated by a comma and a space
    have htext : (Instruction.ldi dest value).operandText.toList =
        dest.name.toList ++ ',' :: ' ' :: (decimal value.toNat).toList := by
      simp [Instruction.operandText]
    rw [Instruction.opcode, readOperands, htext, behindSpace_operands, leadingByte_decimal,
      (leadingByte_name dest _).2]
    rfl
  | prn src =>
    rw [Instruction.opcode, readOperands, Instruction.operandText, (leadingByte_name src []).1]
    rfl
  | alu op dest src =>
    have htext : (Instruction.alu op dest src).operandText.toList =
        dest.name.toList ++ ',' :: ' ' :: src.name.toList := by
      simp [Instruction.operandText]
    rw [Instruction.opcode, readOperands, htext, behindSpace_operands, (leadingByte_name src []).1,
      (leadingByte_name dest _).2]
    rfl

/-- **An instruction is read back from its row.** -/
theorem readRow_ofInstruction (address : Nat) (i : Instruction) :
    readRow (DisassemblyRow.ofInstruction address i).text.toList = i.encode := by
  obtain ⟨hword, hrest⟩ := (DisassemblyRow.ofInstruction address i).parts_text
    i.opcode.space_notMem_mnemonic
  have hopcode : Opcode.ofMnemonic?
      (DisassemblyRow.ofInstruction address i).mnemonic.toList = some i.opcode :=
    i.opcode.ofMnemonic?_mnemonic
  unfold readRow
  rw [hword, hopcode, hrest]
  exact congrArg (i.opcode.byte :: ·) (readOperands_operandText i)

/-- **A byte that is no instruction is read back from its row**, whatever the note says. -/
theorem readRow_ofFault (address : Nat) (byte : UInt8) (fault : Fault) :
    readRow (DisassemblyRow.ofFault address byte fault).text.toList = [byte] := by
  have hspace : ' ' ∉ (DisassemblyRow.ofFault address byte fault).mnemonic.toList := by
    have hbyte : ' ' ∉ ".byte".toList := by decide
    exact hbyte
  obtain ⟨hword, hrest⟩ := (DisassemblyRow.ofFault address byte fault).parts_text hspace
  -- the word in front tells that the row is that of a byte
  have hopcode : Opcode.ofMnemonic?
      (DisassemblyRow.ofFault address byte fault).mnemonic.toList = none := by
    have hbyte : Opcode.ofMnemonic? ".byte".toList = none := by decide
    exact hbyte
  have hdigits : ((DisassemblyRow.ofFault address byte fault).operands.toList.drop 2).take 2 =
      (hexadecimal 2 byte.toNat).toList := by
    have htext : (DisassemblyRow.ofFault address byte fault).operands.toList =
        '0' :: 'x' :: ((hexadecimal 2 byte.toNat).toList ++
          (" ; " ++ DisassemblyRow.note fault).toList) := by
      simp [DisassemblyRow.ofFault, hexLiteral]
    rw [htext, List.drop_succ_cons, List.drop_succ_cons, List.drop_zero,
      List.take_append_of_le_length, List.take_of_length_le]
    · exact Nat.le_of_eq (length_hexadecimal_two byte.toNat_lt)
    · exact Nat.le_of_eq (length_hexadecimal_two byte.toNat_lt).symm
  unfold readRow
  rw [hword, hopcode, hrest]
  simp only [hdigits, hexValue_hexadecimal, UInt8.ofNat_toNat]

/-- What a row inside the memory can be: that of the instruction which starts at its address, or
that of a byte at which none does. -/
inductive RowCase (memory : Memory) (address : Nat) (row : DisassemblyRow) : Prop
  | instruction (i : Instruction) (decoded : decode memory address = .ok i)
      (row_eq : row = .ofInstruction address i)
  | byte (byte : UInt8) (fault : Fault) (fetched : memory.get? address = some byte)
      (decoded : decode memory address = .error fault) (row_eq : row = .ofFault address byte fault)

/-- **A row shows an instruction, or a byte with a note.** There is no third kind. -/
theorem disassemble_cases {memory : Memory} {address : Nat} {row : DisassemblyRow}
    (h : disassemble memory address = some row) : RowCase memory address row := by
  obtain ⟨byte, hbyte, hrow⟩ := Option.map_eq_some_iff.mp h
  split at hrow
  · next i hi => exact .instruction i hi hrow.symm
  · next fault hfault => exact .byte byte fault hbyte hfault hrow.symm

/-- **A row is read back to the cells that it covers.** -/
theorem holds_readRow {memory : Memory} {address : Nat} {row : DisassemblyRow}
    (h : disassemble memory address = some row) :
    memory.Holds address (readRow row.text.toList) ∧
      (readRow row.text.toList).length = row.length := by
  cases disassemble_cases h with
  | instruction i hi hrow =>
    rw [hrow, readRow_ofInstruction]
    exact ⟨holds_encode_of_decode hi, i.length_encode⟩
  | byte byte fault hbyte hfault hrow =>
    rw [hrow, readRow_ofFault]
    exact ⟨⟨hbyte, trivial⟩, rfl⟩

/-! ### Listings are read back -/

namespace Memory

variable {memory : Memory} {address : Nat}

/-- The listing from behind the last cell on is empty. -/
theorem listing_of_le (h : 256 ≤ address) : memory.listing address = [] := by
  have hnone : disassemble memory address = none := disassemble_eq_none_iff.mpr h
  rw [listing]
  split
  · rfl
  · next hsome =>
    rw [hnone] at hsome
    cases hsome

/-- A listing starts with the row at its address and goes on behind the bytes of that row. -/
theorem listing_of_disassemble {row : DisassemblyRow} (h : disassemble memory address = some row) :
    memory.listing address = row :: memory.listing (address + row.length) := by
  rw [listing]
  split
  · next hnone =>
    rw [h] at hnone
    cases hnone
  · next hsome =>
    rw [h] at hsome
    obtain rfl := Option.some.inj hsome
    rfl

/-- The first row of a listing is the one at its first address. -/
theorem disassemble_of_listing {row : DisassemblyRow} {rest : List DisassemblyRow}
    (h : memory.listing address = row :: rest) :
    disassemble memory address = some row ∧ memory.listing (address + row.length) = rest := by
  cases hrow : disassemble memory address with
  | none =>
    rw [listing_of_le (disassemble_eq_none_iff.mp hrow)] at h
    cases h
  | some r =>
    rw [listing_of_disassemble hrow] at h
    obtain ⟨rfl, rfl⟩ := List.cons.inj h
    exact ⟨rfl, rfl⟩

/-- The texts of a listing. -/
def listingTexts (memory : Memory) (address : Nat) : List String :=
  (memory.listing address).map (·.text)

/-- **A listing is read back** to the memory from its first address on. -/
theorem read_listing (memory : Memory) (address : Nat) :
    (memory.listingTexts address).flatMap (fun text => readRow text.toList) =
      memory.toList.drop address := by
  -- the sweep goes on as long as cells are left
  induction hcells : 256 - address using Nat.strongRecOn generalizing address with
  | ind cells ih =>
    cases hrow : disassemble memory address with
    | none =>
      have hle : 256 ≤ address := disassemble_eq_none_iff.mp hrow
      have hend : memory.toList.length ≤ address := by
        rw [length_toList]
        exact hle
      rw [listingTexts, listing_of_le hle, List.drop_eq_nil_of_le hend]
      rfl
    | some row =>
      obtain ⟨-, hpos, hle⟩ := disassemble_bounds hrow
      obtain ⟨hholds, hlength⟩ := holds_readRow hrow
      have hrest := ih (256 - (address + row.length)) (by omega) (address + row.length) rfl
      rw [listingTexts] at hrest
      rw [listingTexts, listing_of_disassemble hrow, List.map_cons, List.flatMap_cons, hrest,
        drop_toList_of_holds hholds, hlength]

/-- **Listings lose nothing.** Memories whose listings from an address on have the same texts agree
on every cell from there on, and memories with the same full listing are equal. -/
theorem listing_lossless (a b : Memory) :
    (∀ address, a.listingTexts address = b.listingTexts address →
      ∀ i, address ≤ i → i < 256 → a.get? i = b.get? i) ∧
    (a.listingTexts 0 = b.listingTexts 0 → a = b) := by
  have hcells : ∀ address, a.listingTexts address = b.listingTexts address →
      ∀ i, address ≤ i → i < 256 → a.get? i = b.get? i := by
    intro address h i hi _
    -- both memories are read back from the same texts
    have hdrop : a.toList.drop address = b.toList.drop address := by
      rw [← read_listing, h, read_listing]
    obtain ⟨k, rfl⟩ := Nat.exists_eq_add_of_le hi
    rw [← getElem?_toList, ← getElem?_toList, ← List.getElem?_drop, hdrop, List.getElem?_drop]
  exact ⟨hcells, fun h => ext_get? fun i hi => hcells 0 h i (Nat.zero_le i) hi⟩

/-- Two memories that differ in their first cell, and agree on the last two. -/
theorem listing_lossless_lastCells :
    (ofProgram [1]).listingTexts 254 = zero.listingTexts 254 ∧
      (ofProgram [1]).get? 255 = zero.get? 255 := by
  have h : (ofProgram [1]).listingTexts 254 = zero.listingTexts 254 := by decide +kernel
  exact ⟨h, (listing_lossless (ofProgram [1]) zero).1 254 h 255 (by decide) (by decide)⟩

end Memory

end LS8
