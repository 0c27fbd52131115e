import Mathlib.Data.List.GetD
import LS8.Memory

/-!
# Images in memory

`Memory.Holds` places a list of bytes at an address. Code is read from memory a few bytes at a time,
so the statement is split where the code is (`Memory.holds_append`). A memory made from an image
holds it at address zero (`Memory.holds_ofProgram`) and zeros behind it.
-/

namespace LS8

namespace Memory

variable {memory : Memory} {address : Nat}

/-- The cells from an address on hold the given bytes. -/
def Holds (memory : Memory) (address : Nat) : List UInt8 → Prop
  | [] => True
  | byte :: bytes => memory.get? address = some byte ∧ memory.Holds (address + 1) bytes

/-- The cells are listed in the order of their addresses. -/
theorem getElem?_toList (memory : Memory) (address : Nat) :
    memory.toList[address]? = memory.get? address := by
  simp [toList, get?]

/-- Bytes are held in two parts, one behind the other. -/
theorem holds_append {a b : List UInt8} :
    memory.Holds address (a ++ b) ↔
      memory.Holds address a ∧ memory.Holds (address + a.length) b := by
  induction a generalizing address with
  | nil => simp [Holds]
  | cons byte a ih =>
    rw [List.cons_append, Holds, Holds, ih, and_assoc, List.length_cons, Nat.add_right_comm,
      Nat.add_assoc]

/-- Bytes are held where each of them is. -/
theorem holds_of_getElem {bytes : List UInt8}
    (h : ∀ i (hi : i < bytes.length), memory.get? (address + i) = some bytes[i]) :
    memory.Holds address bytes := by
  induction bytes generalizing address with
  | nil => trivial
  | cons byte bytes ih =>
    refine ⟨h 0 (Nat.succ_pos _), ih fun i hi => ?_⟩
    rw [Nat.add_right_comm]
    exact h (i + 1) (Nat.succ_lt_succ hi)

/-- What is held is what the list of all cells has there. -/
theorem drop_toList_of_holds {bytes : List UInt8} (h : memory.Holds address bytes) :
    memory.toList.drop address = bytes ++ memory.toList.drop (address + bytes.length) := by
  induction bytes generalizing address with
  | nil => rfl
  | cons byte bytes ih =>
    obtain ⟨hbyte, hrest⟩ := h
    have hlt : address < memory.toList.length := by
      rw [length_toList]
      exact lt_of_get? hbyte
    -- the first cell holds the first byte, and the rest is the induction hypothesis
    have hcell : memory.toList[address] = byte := by
      apply Option.some.inj
      rw [← List.getElem?_eq_getElem hlt, getElem?_toList, hbyte]
    rw [List.drop_eq_getElem_cons hlt, hcell, ih hrest, List.length_cons, Nat.add_assoc,
      Nat.add_comm 1, List.cons_append]

/-- **A loaded image is in memory.** -/
theorem holds_ofProgram {image : List UInt8} (h : image.length ≤ 256) :
    (ofProgram image).Holds 0 image := by
  refine holds_of_getElem fun i hi => ?_
  rw [Nat.zero_add, get?_ofProgram (Nat.lt_of_lt_of_le hi h), List.getD_eq_getElem _ _ hi]

/-- Behind an image the memory is cleared. -/
theorem get?_ofProgram_of_le {image : List UInt8} (h : image.length ≤ address)
    (haddress : address < 256) : (ofProgram image).get? address = some 0 := by
  rw [get?_ofProgram haddress, List.getD_eq_default _ _ h]

/-- The cells of a memory made from an image: the image, and zeros up to the end. -/
theorem toList_ofProgram {image : List UInt8} (h : image.length ≤ 256) :
    (ofProgram image).toList = image ++ List.replicate (256 - image.length) 0 := by
  refine List.ext_getElem ?_ fun i hi hi' => ?_
  · rw [length_toList, List.length_append, List.length_replicate]
    omega
  · simp only [ofProgram, toList, Vector.getElem_toList, Vector.getElem_ofFn]
    by_cases hlt : i < image.length
    · rw [List.getD_eq_getElem _ _ hlt, List.getElem_append_left hlt]
    · have hle := Nat.le_of_not_lt hlt
      rw [List.getD_eq_default _ _ hle, List.getElem_append_right hle, List.getElem_replicate]

end Memory

end LS8
