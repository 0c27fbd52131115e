import LS8.RegisterFile

/-!
# The arithmetic unit

Registers are bytes. Addition, subtraction and multiplication wrap modulo 256; division truncates
and has no result for a zero divisor. An operation reads both of its registers before it writes the
first one, so a register may be combined with itself.
-/

namespace LS8

/-- The operations of the arithmetic unit. -/
inductive AluOp where
  | add
  | sub
  | mul
  | div
  deriving DecidableEq, Repr

namespace AluOp

/-- All operations. -/
def all : List AluOp := [add, sub, mul, div]

/-- The upper-case mnemonic of an operation. -/
def mnemonic : AluOp → String
  | add => "ADD"
  | sub => "SUB"
  | mul => "MUL"
  | div => "DIV"

/-- The operation with exactly the given mnemonic. -/
def ofMnemonic (name : String) : Except Fault AluOp :=
  match all.find? (·.mnemonic == name) with
  | some op => .ok op
  | none => .error (.unsupportedOperation name)

/-- The result on two bytes; division by zero has none. -/
def compute : AluOp → UInt8 → UInt8 → Option UInt8
  | add, a, b => some (a + b)
  | sub, a, b => some (a - b)
  | mul, a, b => some (a * b)
  | div, a, b => if b = 0 then none else some (a / b)

theorem ofMnemonic_mnemonic (op : AluOp) : ofMnemonic op.mnemonic = .ok op := by
  cases op <;> rfl

/-- The only operation without a result is division by zero. -/
theorem compute_eq_none_iff {op : AluOp} {a b : UInt8} :
    op.compute a b = none ↔ op = div ∧ b = 0 := by
  cases op <;> simp [compute]

end AluOp

namespace RegisterFile

/-- What an operation would write to `dest`, without writing it. -/
def evaluate (file : RegisterFile) (op : AluOp) (dest src : Register) : Except Fault UInt8 :=
  match op.compute (file.get dest) (file.get src) with
  | some value => .ok value
  | none => .error (.divisionByZero dest src)

/-- Applies an operation: the value written to `dest`, and the file that holds it. -/
def apply (file : RegisterFile) (op : AluOp) (dest src : Register) :
    Except Fault (UInt8 × RegisterFile) :=
  (file.evaluate op dest src).map fun value => (value, file.set dest value)

end RegisterFile

end LS8
