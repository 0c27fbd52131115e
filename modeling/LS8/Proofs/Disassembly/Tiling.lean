import Mathlib.Data.List.Nodup
import Mathlib.Data.List.Pairwise
import LS8.Proofs.Disassembly.Listing

/-!
# Sweeps tile the memory

A reader of a disassembly takes one row after another, each where the one before it ended, until
there is no row any more. `Memory.Sweep` is this process, broken off after any number of rows;
nothing in it says that it comes to an end, or where.

Both follow from what one row covers. It covers a cell at least, so a sweep moves on, and it does
not reach past the end of memory. The second bound is the one that could fail, because an
instruction may be three cells long: where its operands are missing it is not decoded, and its
opcode gets a row of a single cell (`disassemble_bounds`). So no sweep jumps over the address 256,
the only one up to there at which no row is found.

* `Memory.Sweep.cells_eq`: the cells of the rows, one row after another, are those that the sweep
  has passed, in their order. This is the invariant of a sweep; that no cell is left out or taken
  twice is read off it (`Memory.Sweep.existsUnique_row`).
* `Memory.Sweep.listing_eq`: every sweep is the first part of the listing from its first address on.
* `Memory.sweep_listing`: the listing is a sweep, and it ends at 256.
-/

namespace LS8

/-- The addresses of the cells that a row covers. -/
def DisassemblyRow.cells (row : DisassemblyRow) : List Nat :=
  List.range' row.address row.length

/-- **A sweep.** Its rows are taken one after another from the first address on, each of them where
the one before it ended; the last one ended at the second address. -/
inductive Memory.Sweep (memory : Memory) : Nat → List DisassemblyRow → Nat → Prop
  | start (address : Nat) : Sweep memory address [] address
  | row {address stop : Nat} {row : DisassemblyRow} {rows : List DisassemblyRow}
      (taken : disassemble memory address = some row)
      (rest : Sweep memory (address + row.length) rows stop) :
      Sweep memory address (row :: rows) stop

/-- No row covers more than three cells. -/
theorem disassemble_length_le {memory : Memory} {address : Nat} {row : DisassemblyRow}
    (h : disassemble memory address = some row) : row.length ≤ 3 := by
  cases disassemble_cases h with
  | instruction i _ hrow =>
    rw [hrow]
    exact i.length_le
  | byte byte fault _ _ hrow =>
    rw [hrow]
    show 1 ≤ 3
    decide

namespace Memory

variable {memory : Memory} {address stop : Nat} {rows : List DisassemblyRow}

namespace Sweep

/-- Every row moves the sweep on by a cell at least. -/
theorem add_length_le (h : memory.Sweep address rows stop) : address + rows.length ≤ stop := by
  induction h with
  | start address => exact Nat.le_refl address
  | row htaken _ ih =>
    obtain ⟨-, hpos, -⟩ := disassemble_bounds htaken
    rw [List.length_cons]
    omega

/-- A sweep that starts inside the memory, or right behind its end, does not get past that. -/
theorem stop_le (h : memory.Sweep address rows stop) (haddress : address ≤ 256) : stop ≤ 256 := by
  induction h with
  | start address => exact haddress
  | row htaken _ ih =>
    -- the rest of the sweep starts where the row ends, and that is in range again
    obtain ⟨-, -, hle⟩ := disassemble_bounds htaken
    exact ih hle

/-- Every row of a sweep covers between one and three cells, all of them in the memory. -/
theorem bounds_of_mem (h : memory.Sweep address rows stop) : ∀ row ∈ rows,
    1 ≤ row.length ∧ row.length ≤ 3 ∧ row.address + row.length ≤ 256 := by
  induction h with
  | start address => exact fun _ hmem => absurd hmem List.not_mem_nil
  | row htaken _ ih =>
    obtain ⟨haddress, hpos, hle⟩ := disassemble_bounds htaken
    refine List.forall_mem_cons.mpr ⟨⟨hpos, disassemble_length_le htaken, ?_⟩, ih⟩
    rwa [haddress]

/-- **The rows of a sweep tile what it has passed**: their cells, one row after another, are the
cells from its first address on, up to the one at which it stops. -/
theorem cells_eq (h : memory.Sweep address rows stop) :
    rows.flatMap DisassemblyRow.cells = List.range' address (stop - address) := by
  induction h with
  | start address =>
    rw [Nat.sub_self]
    rfl
  | @row address stop row rows htaken hrest ih =>
    obtain ⟨haddress, -, -⟩ := disassemble_bounds htaken
    -- the row covers what lies in front of the rest of the sweep
    have hstop : address + row.length ≤ stop :=
      Nat.le_trans (Nat.le_add_right _ _) hrest.add_length_le
    calc (row :: rows).flatMap DisassemblyRow.cells
        = row.cells ++ rows.flatMap DisassemblyRow.cells := List.flatMap_cons
      _ = List.range' address row.length ++
            List.range' (address + row.length) (stop - (address + row.length)) := by
          rw [ih, DisassemblyRow.cells, haddress]
      _ = List.range' address (row.length + (stop - (address + row.length))) :=
          List.range'_append_1
      _ = List.range' address (stop - address) := by
          congr 1
          omega

/-- **One row for each cell.** No two rows share a cell, and none of the cells is left out. -/
theorem existsUnique_row (h : memory.Sweep address rows stop) {cell : Nat} (hfirst : address ≤ cell)
    (hlast : cell < stop) : ∃! row, row ∈ rows ∧ cell ∈ row.cells := by
  have hmem : cell ∈ rows.flatMap DisassemblyRow.cells := by
    rw [h.cells_eq]
    apply List.mem_range'_1.mpr
    omega
  have hnodup : (rows.flatMap DisassemblyRow.cells).Nodup := by
    rw [h.cells_eq]
    exact List.nodup_range'
  obtain ⟨row, hrow, hcell⟩ := List.mem_flatMap.mp hmem
  obtain ⟨-, hdisjoint⟩ := List.nodup_flatMap.mp hnodup
  have hsymm : Std.Symm (Function.onFun List.Disjoint DisassemblyRow.cells) :=
    ⟨fun _ _ h _ hcell hcell' => h hcell' hcell⟩
  refine ⟨row, ⟨hrow, hcell⟩, ?_⟩
  rintro other ⟨hother, hcell'⟩
  -- two rows with a common cell are one and the same
  by_contra hne
  exact hdisjoint.forall hother hrow hne hcell' hcell

/-- Taking rows leaves no choice: whatever a sweep has taken stands in front of what is listed where
it stopped. -/
theorem listing_eq (h : memory.Sweep address rows stop) :
    memory.listing address = rows ++ memory.listing stop := by
  induction h with
  | start address => rfl
  | row htaken _ ih => rw [listing_of_disassemble htaken, ih, List.cons_append]

end Sweep

/-- **The listing is a sweep that ends where the memory does.** -/
theorem sweep_listing (memory : Memory) {address : Nat} (h : address ≤ 256) :
    memory.Sweep address (memory.listing address) 256 := by
  induction address using Memory.listing.induct memory with
  | case1 address hnone =>
    -- where no row is found, the sweep cannot be short of the end, and it was not beyond it
    have hend : address = 256 := Nat.le_antisymm h (disassemble_eq_none_iff.mp hnone)
    rw [hend, listing_of_le (Nat.le_refl 256)]
    exact .start 256
  | case2 address row hrow ih =>
    obtain ⟨-, -, hle⟩ := disassemble_bounds hrow
    rw [listing_of_disassemble hrow]
    exact .row hrow (ih hle)

/-- What a full sweep from an address is: the rows that it takes and the way it ends. -/
structure Tiled (memory : Memory) (address : Nat) (rows : List DisassemblyRow) : Prop where
  /-- Taken one after another, the rows end right behind the last cell. -/
  sweep : memory.Sweep address rows 256
  /-- However far a sweep has come, it is over exactly at that address. -/
  over_iff : ∀ taken stop, memory.Sweep address taken stop →
    (disassemble memory stop = none ↔ stop = 256)
  /-- It comes there: no sweep takes more rows than there are cells. -/
  length_le : ∀ taken stop, memory.Sweep address taken stop → taken.length ≤ 256 - address
  /-- There is no other sweep to the end. -/
  rows_eq : ∀ taken, memory.Sweep address taken 256 → taken = rows
  bounds : ∀ row ∈ rows, 1 ≤ row.length ∧ row.length ≤ 3 ∧ row.address + row.length ≤ 256
  cells_eq : rows.flatMap DisassemblyRow.cells = List.range' address (256 - address)
  covered_once : ∀ cell, address ≤ cell → cell < 256 → ∃! row, row ∈ rows ∧ cell ∈ row.cells

/-- **A sweep tiles the memory.** From any address up to 256 on, taking row after row ends at 256
and nowhere else, and the rows on the way cover each cell once. A row is missing only behind the end
of memory. -/
theorem listing_tiles (memory : Memory) :
    (∀ address, address ≤ 256 → memory.Tiled address (memory.listing address)) ∧
    ∀ address, disassemble memory address = none ↔ 256 ≤ address := by
  refine ⟨fun address haddress => ?_, fun _ => disassemble_eq_none_iff⟩
  -- every other field is a fact about sweeps that end where this one does
  have hsweep := sweep_listing memory haddress
  exact {
    sweep := hsweep
    over_iff := by
      intro taken stop h
      have hle := h.stop_le haddress
      rw [disassemble_eq_none_iff]
      omega
    length_le := by
      intro taken stop h
      have hlength := h.add_length_le
      have hle := h.stop_le haddress
      omega
    rows_eq := by
      intro taken h
      rw [h.listing_eq, listing_of_le (Nat.le_refl 256), List.append_nil]
    bounds := hsweep.bounds_of_mem
    cells_eq := hsweep.cells_eq
    covered_once := fun _ => hsweep.existsUnique_row }

/-- A memory that ends with a load instruction cut off behind its register. -/
def endsInLoad : Memory where
  cells := ⟨(List.replicate 254 (0 : UInt8) ++ [0x82, 0]).toArray, by
    rw [List.size_toArray, List.length_append, List.length_replicate]
    rfl⟩

/-- The two bytes that are left of the instruction get a row each. -/
theorem listing_tiles_endsInLoad :
    254 ≤ 256 ∧ (endsInLoad.listing 254).map (·.length) = [1, 1] ∧
      endsInLoad.Tiled 254 (endsInLoad.listing 254) :=
  ⟨by decide, by decide +kernel, (listing_tiles endsInLoad).1 254 (by decide)⟩

end Memory

end LS8
