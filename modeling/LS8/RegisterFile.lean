import LS8.Access

/-!
# The register file

Eight bytes, one for each `Register`. `get` and `set` take registers and cannot fail; `read` and
`write` take raw indices and fault on the ones that name no register.
-/

namespace LS8

/-- The contents of the eight registers. -/
structure RegisterFile where
  /-- The bytes in register order. -/
  values : Vector UInt8 8
  deriving DecidableEq

namespace RegisterFile

/-- All registers zero. -/
def zero : RegisterFile := ⟨Vector.replicate 8 0⟩

instance : Inhabited RegisterFile := ⟨zero⟩

/-- The byte in a register. -/
def get (file : RegisterFile) (r : Register) : UInt8 :=
  file.values[r]

/-- The file with one register replaced. -/
def set (file : RegisterFile) (r : Register) (value : UInt8) : RegisterFile :=
  ⟨file.values.set r value⟩

/-- The byte in the register with a given index. -/
def read (file : RegisterFile) (index : Nat) : Except Fault UInt8 :=
  (Register.select index).map file.get

/-- The file with the register of a given index replaced. -/
def write (file : RegisterFile) (index : Nat) (value : UInt8) : Except Fault RegisterFile :=
  (Register.select index).map (file.set · value)

/-- The bytes in register order. -/
def toList (file : RegisterFile) : List UInt8 :=
  file.values.toList

/-- The register file with the given bytes, provided that there are eight. -/
def ofList? (bytes : List UInt8) : Option RegisterFile :=
  if h : bytes.length = 8 then some ⟨⟨bytes.toArray, by simp [h]⟩⟩ else none

@[simp] theorem length_toList (file : RegisterFile) : file.toList.length = 8 := by
  simp [toList]

/-- A register file is made again from its values. -/
theorem ofList?_toList (file : RegisterFile) : ofList? file.toList = some file := by
  rw [ofList?, dif_pos file.length_toList]
  rfl

@[simp] theorem get_zero (r : Register) : zero.get r = 0 := by
  simp [zero, get]

/-- A register that was set has its new value. -/
@[simp] theorem get_set_self (file : RegisterFile) (r : Register) (value : UInt8) :
    (file.set r value).get r = value := by
  simp [get, set]

/-- The others keep theirs. -/
theorem get_set_of_ne {file : RegisterFile} {r q : Register} {value : UInt8} (h : q ≠ r) :
    (file.set r value).get q = file.get q := by
  simp only [get, set, Fin.getElem_fin]
  exact Vector.getElem_set_ne _ _ fun e => h (Fin.ext e.symm)

end RegisterFile

end LS8
