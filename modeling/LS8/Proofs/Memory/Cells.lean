import LS8.Memory

/-!
# Cells that exist

A write is checked, and what is left behind the check is `Memory.put`: one cell replaced, and every
other one as it was. Bytes that are put one behind the other stand there as they came
(`Memory.get?_putAll_add`), and the cells in front of them stay (`Memory.get?_putAll_of_lt`).
-/

namespace LS8

namespace Memory

variable {memory : Memory} {address : Nat}

/-- The memory with one cell replaced, if there is such a cell. -/
def put (memory : Memory) (address : Nat) (byte : UInt8) : Memory :=
  ⟨memory.cells.setIfInBounds address byte⟩

/-- The memory with consecutive cells replaced, as far as there are any. -/
def putAll (memory : Memory) (address : Nat) : List UInt8 → Memory
  | [] => memory
  | byte :: bytes => (memory.put address byte).putAll (address + 1) bytes

/-- Inside the memory, a write succeeds. -/
theorem write_of_lt (h : address < 256) (byte : UInt8) :
    memory.write address byte = .ok (memory.put address byte) := by
  unfold write put
  rw [dif_pos h]
  congr 2
  -- the two ways to set a cell agree where there is one
  apply Vector.ext
  intro i hi
  rw [Vector.getElem_set, Vector.getElem_setIfInBounds]

/-- Outside, it is refused with the address. -/
theorem write_of_le (h : 256 ≤ address) (byte : UInt8) :
    memory.write address byte = .error (.addressOutOfRange .memory address) := by
  unfold write
  rw [dif_neg (Nat.not_lt_of_le h)]

theorem get?_put_self (h : address < 256) (byte : UInt8) :
    (memory.put address byte).get? address = some byte := by
  simp [put, get?, h]

theorem get?_put_of_ne {other : Nat} (h : address ≠ other) (byte : UInt8) :
    (memory.put address byte).get? other = memory.get? other := by
  simp [put, get?, h]

/-- Cells in front of the replaced ones stay. -/
theorem get?_putAll_of_lt {bytes : List UInt8} {other : Nat} (h : other < address) :
    (memory.putAll address bytes).get? other = memory.get? other := by
  -- the bytes are put from the front, so the memory changes along the induction
  induction bytes generalizing memory address with
  | nil => rfl
  | cons byte bytes ih =>
    have hne : address ≠ other := (Nat.ne_of_lt h).symm
    calc (memory.putAll address (byte :: bytes)).get? other
        = (memory.put address byte).get? other := ih (Nat.lt_succ_of_lt h)
      _ = memory.get? other := get?_put_of_ne hne byte

/-- From the first replaced cell on, the bytes come first and then what was there. -/
theorem get?_putAll_add {bytes : List UInt8} {offset : Nat} (h : address + offset < 256) :
    (memory.putAll address bytes).get? (address + offset) =
      bytes[offset]?.or (memory.get? (address + offset)) := by
  induction bytes generalizing memory address offset with
  | nil => rfl
  | cons byte bytes ih =>
    change ((memory.put address byte).putAll (address + 1) bytes).get? (address + offset) = _
    cases offset with
    | zero =>
      -- the first cell is put first, and the later ones leave it alone
      have hstays : ((memory.put address byte).putAll (address + 1) bytes).get? address =
          (memory.put address byte).get? address := get?_putAll_of_lt (Nat.lt_succ_self address)
      exact hstays.trans (get?_put_self h byte)
    | succ offset =>
      -- any later cell has the same place among the later bytes
      have hne : address ≠ address + 1 + offset := by omega
      rw [← Nat.add_assoc, Nat.add_right_comm] at h ⊢
      rw [ih h, get?_put_of_ne hne, List.getElem?_cons_succ]

/-- **An image copied over a cleared memory** is the memory of a program. -/
theorem putAll_zero (image : List UInt8) : zero.putAll 0 image = ofProgram image := by
  apply ext_get?
  intro address haddress
  have hzero : zero.get? address = some 0 := by simp [zero, get?, haddress]
  have hoffset : 0 + address < 256 := by rwa [Nat.zero_add]
  -- a cell that the image does not reach is cleared on both sides
  calc (zero.putAll 0 image).get? address
      = (zero.putAll 0 image).get? (0 + address) := by rw [Nat.zero_add]
    _ = image[address]?.or (some 0) := by rw [get?_putAll_add hoffset, Nat.zero_add, hzero]
    _ = some (image.getD address 0) := by
      rw [List.getD_eq_getElem?_getD]
      cases image[address]? with
      | none => rfl
      | some byte => rfl
    _ = (ofProgram image).get? address := (get?_ofProgram haddress).symm

end Memory

end LS8
