import LS8.Proofs.Machine.Locality
import LS8.Proofs.Memory.Cells

/-!
# Disassembling a trace frame

A trace frame has three cells of a memory and none of the rest. It is disassembled by placing these
cells in a cleared memory, and the row is still the one of the machine's own memory
(`disassemble_window`), because decoding looks at no other cells (`decode_eq_of_agreeOn`).

What has to be seen is that the placed memory holds what the machine sees (`Machine.exists_placed`),
also where the frame is cut off by the end of memory. A cell that the frame lacks is lacking in every
memory, the placed one included. So no write is made for it that could be refused, and decoding runs
into the end of the placed memory where it runs into the end of the other one.
-/

namespace LS8

variable {source memory : Memory} {address pc : Nat}

/-! ### Placing cells -/

namespace TraceFrame

variable {cell : Option UInt8} {cells : List (Option UInt8)}

/-- What becomes of one cell: it is put where it comes from, if it exists at all. -/
theorem exists_place_cons (memory : Memory) (cells : List (Option UInt8))
    (hcell : cell = source.get? address) :
    ∃ next, place (cell :: cells) address memory = place cells (address + 1) next ∧
      next.get? address = source.get? address ∧
      ∀ other, other ≠ address → next.get? other = memory.get? other := by
  cases cell with
  | none =>
    -- behind the memory there is nothing to place, and nothing to find in the source either
    have hbeyond : 256 ≤ address := Memory.get?_eq_none_iff.mp hcell.symm
    refine ⟨memory, rfl, ?_, fun _ _ => rfl⟩
    rw [← hcell, Memory.get?_eq_none_iff.mpr hbeyond]
  | some byte =>
    have hlt : address < 256 := Memory.lt_of_get? hcell.symm
    refine ⟨memory.put address byte, ?_, ?_, fun other hother => ?_⟩
    · rw [place, Memory.write_of_lt hlt]
      rfl
    · rw [← hcell, Memory.get?_put_self hlt]
    · exact Memory.get?_put_of_ne hother.symm byte

/-- **Cells of a memory can be placed where they come from.** None of the writes fails. The placed
memory agrees with the source of the cells on them, and is as before in front of them. -/
theorem exists_place (h : ∀ offset (hoffset : offset < cells.length),
      cells[offset] = source.get? (address + offset)) :
    ∃ placed, place cells address memory = .ok placed ∧
      source.AgreeOn placed address (address + cells.length) ∧
      ∀ other < address, placed.get? other = memory.get? other := by
  -- the cells are placed from the first one on, so the memory changes along the induction
  induction cells generalizing address memory with
  | nil =>
    refine ⟨memory, rfl, ?_, fun _ _ => rfl⟩
    intro other hfirst hlast _
    exact absurd hlast (Nat.not_lt_of_le hfirst)
  | cons cell cells ih =>
    have hcell : cell = source.get? address := h 0 (Nat.succ_pos _)
    obtain ⟨next, hplace, hnext, hkept⟩ := exists_place_cons memory cells hcell
    have hcells : ∀ offset (hoffset : offset < cells.length),
        cells[offset] = source.get? (address + 1 + offset) := by
      intro offset hoffset
      rw [Nat.add_right_comm]
      exact h (offset + 1) (Nat.succ_lt_succ hoffset)
    obtain ⟨placed, hrest, hagree, hbefore⟩ :
      ∃ placed, place cells (address + 1) next = .ok placed ∧
        source.AgreeOn placed (address + 1) (address + 1 + cells.length) ∧
        ∀ other < address + 1, placed.get? other = next.get? other := ih hcells
    refine ⟨placed, hplace.trans hrest, ?_, fun other hother => ?_⟩
    · intro other hfirst hlast hother
      rcases Nat.eq_or_lt_of_le hfirst with rfl | hbehind
      · rw [hbefore address (Nat.lt_succ_self address), hnext]
      · rw [List.length_cons] at hlast
        exact hagree other hbehind (by omega) hother
    · rw [hbefore other (Nat.lt_succ_of_lt hother), hkept other (Nat.ne_of_lt hother)]

end TraceFrame

/-! ### The row of a frame -/

/-- A row depends on the cells that an instruction can have, whether there is an instruction or
not. -/
theorem disassemble_eq_of_agreeOn {a b : Memory} (h : a.AgreeOn b pc (pc + 3)) :
    disassemble b pc = disassemble a pc := by
  have hbyte : b.get? pc = a.get? pc :=
    h.get?_eq (Nat.le_refl pc) (Nat.lt_add_of_pos_right (by decide))
  unfold disassemble
  rw [hbyte, decode_eq_of_agreeOn h]

namespace Machine

/-- **The placed memory holds what the machine sees.** -/
theorem exists_placed (m : Machine) :
    ∃ placed, TraceFrame.place m.trace.window.toList m.trace.pc .zero = .ok placed ∧
      m.SeesAlike placed := by
  have hcells : ∀ offset (hoffset : offset < m.trace.window.toList.length),
      m.trace.window.toList[offset] = m.memory.get? (m.pc + offset) := by
    intro offset _
    simp [trace]
  obtain ⟨placed, hplace, hagree, -⟩ := TraceFrame.exists_place hcells
  refine ⟨placed, hplace, ?_⟩
  rwa [Vector.length_toList] at hagree

/-- What the frame of a machine tells about the instruction that it is about to execute. -/
structure WindowSuffices (m : Machine) : Prop where
  /-- None of the writes that place the window is refused. -/
  placed : ∃ memory, TraceFrame.place m.trace.window.toList m.trace.pc .zero = .ok memory
  /-- The row is the same in each of its parts. -/
  row_eq : m.trace.disassemble = disassemble m.memory m.pc
  none_iff : m.trace.disassemble = none ↔ 256 ≤ m.pc

/-- **A frame is enough to disassemble the instruction at the program counter**, wherever the
program counter is and whatever stands there. -/
theorem disassemble_window (m : Machine) : m.WindowSuffices := by
  obtain ⟨placed, hplace, hsees⟩ := m.exists_placed
  have hrow : m.trace.disassemble = disassemble m.memory m.pc := by
    unfold TraceFrame.disassemble
    rw [hplace]
    exact disassemble_eq_of_agreeOn hsees
  refine ⟨⟨placed, hplace⟩, hrow, ?_⟩
  rw [hrow]
  exact disassemble_eq_none_iff

end Machine

-- a load instruction on the last two cells: the frame lacks the third one, and so does the memory
example : ({ memory := (Memory.zero.put 254 0x82).put 255 3, pc := 254 } :
    Machine).trace.disassemble.map (·.text) =
      some ".byte 0x82 ; memory address 0x100 out of range" := by
  decide +kernel

end LS8
