import LS8.Text.Numeral

/-!
# Registers

The machine has eight general-purpose registers, `R0` to `R7`. A `Register` is the index of one of
them, so a register that exists is the only kind there is; bytes and raw indices become registers
through `Register.ofIndex?`.
-/

namespace LS8

/-- One of the eight general-purpose registers, named by its index. -/
abbrev Register : Type := Fin 8

namespace Register

/-- The number of registers. -/
def count : Nat := 8

/-- All registers in index order. -/
def all : List Register := List.finRange 8

/-- The register with a given index, if there is one. -/
def ofIndex? (index : Nat) : Option Register :=
  if h : index < 8 then some ⟨index, h⟩ else none

/-- The name that listings and diagnostics use, `R0` to `R7`. -/
def name (r : Register) : String :=
  "R" ++ decimal r.val

theorem ofIndex?_val (r : Register) : ofIndex? r.val = some r := by
  simp [ofIndex?]

/-- The index of a register names it, and it alone. -/
theorem ofIndex?_eq_some_iff {index : Nat} {r : Register} :
    ofIndex? index = some r ↔ r.val = index := by
  unfold ofIndex?
  split <;> rename_i h
  · simp only [Option.some.injEq]
    exact ⟨fun e => e ▸ rfl, fun e => Fin.ext e.symm⟩
  · simp only [reduceCtorEq, false_iff]
    exact fun e => h (e ▸ r.isLt)

/-- The other numbers name no register. -/
theorem ofIndex?_eq_none_iff {index : Nat} : ofIndex? index = none ↔ 8 ≤ index := by
  simp [ofIndex?]

end Register

end LS8
