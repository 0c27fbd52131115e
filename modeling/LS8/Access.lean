import LS8.Fault

/-!
# Checked access

The two checks that guard every cell of the machine: an address has to lie inside its storage space,
and a value has to fit in a byte. Numbers that come from outside are bounded too: addresses fit in
64 bits and operand values in 32.
-/

namespace LS8

/-- The first number that is too large for an address, a length or a program counter. -/
def addressBound : Nat := 0x10000000000000000

/-- The first number that is too large for an operand value. -/
def operandBound : Nat := 0x100000000

/-- An address of a space with `size` cells: the address itself, or the fault that names it. -/
def checkAddress (space : AddressSpace) (address size : Nat) : Except Fault Nat :=
  if address < size then .ok address else .error (.addressOutOfRange space address)

/-- A value narrowed to a byte, or the fault that names it. -/
def byteOperand (value : Nat) : Except Fault UInt8 :=
  if value < 256 then .ok (UInt8.ofNat value) else .error (.invalidOperand value)

/-- The register with a given index, or the fault that names the index. -/
def Register.select (index : Nat) : Except Fault Register :=
  match Register.ofIndex? index with
  | some r => .ok r
  | none => .error (.addressOutOfRange .registers index)

/-- The register that an operand byte names. -/
def Register.ofOperand (byte : UInt8) : Except Fault Register :=
  Register.select byte.toNat

/-- Checks that are made one after another succeed if each of them does. -/
theorem bind_eq_ok_iff {ε α β : Type} {x : Except ε α} {f : α → Except ε β} {b : β} :
    x >>= f = .ok b ↔ ∃ a, x = .ok a ∧ f a = .ok b := by
  cases x with
  | error e => simp [bind, Except.bind]
  | ok a => simp [bind, Except.bind]

/-- Checks that are made one after another fail where the first of them does. -/
theorem bind_eq_error_iff {ε α β : Type} {x : Except ε α} {f : α → Except ε β} {e : ε} :
    x >>= f = .error e ↔ x = .error e ∨ ∃ a, x = .ok a ∧ f a = .error e := by
  cases x with
  | error e' => simp [bind, Except.bind]
  | ok a => simp [bind, Except.bind]

/-- What is made of a checked value is made of the value that the check gives. -/
theorem map_eq_ok_iff {ε α β : Type} {f : α → β} {x : Except ε α} {b : β} :
    x.map f = .ok b ↔ ∃ a, x = .ok a ∧ f a = b := by
  cases x with
  | error e => simp [Except.map]
  | ok a => simp [Except.map]

/-- Changing the value that a check gives does not change when it fails. -/
theorem map_eq_error_iff {ε α β : Type} {f : α → β} {x : Except ε α} {e : ε} :
    x.map f = .error e ↔ x = .error e := by
  cases x with
  | error cause => simp [Except.map]
  | ok a => simp [Except.map]

/-- An address below the size of its space is taken as it is. -/
theorem checkAddress_of_lt {space : AddressSpace} {address size : Nat} (h : address < size) :
    checkAddress space address size = .ok address := by
  simp [checkAddress, h]

/-- Any other address is refused, and the fault names it together with its space. -/
theorem checkAddress_of_le {space : AddressSpace} {address size : Nat} (h : size ≤ address) :
    checkAddress space address size = .error (.addressOutOfRange space address) := by
  simp [checkAddress, Nat.not_lt.mpr h]

/-- An operand value below 256 is a byte. -/
theorem byteOperand_of_lt {value : Nat} (h : value < 256) :
    byteOperand value = .ok (UInt8.ofNat value) := by
  simp [byteOperand, h]

/-- A larger one is refused with its value; nothing of it is cut off. -/
theorem byteOperand_of_le {value : Nat} (h : 256 ≤ value) :
    byteOperand value = .error (.invalidOperand value) := by
  simp [byteOperand, Nat.not_lt.mpr h]

/-- Every register is selected by its own index. -/
theorem Register.select_val (r : Register) : Register.select r.val = .ok r := by
  simp [Register.select, Register.ofIndex?_val]

/-- There is no ninth register. -/
theorem Register.select_of_le {index : Nat} (h : 8 ≤ index) :
    Register.select index = .error (.addressOutOfRange .registers index) := by
  simp [Register.select, Register.ofIndex?_eq_none_iff.mpr h]

end LS8
