import LS8.Alu
import LS8.Memory

/-!
# The machine

A machine is its memory, its registers, its program counter and its run state, together with the
configuration that it was built with. The requests of this module are those of a host that prepares
a machine: loading a program, resetting, and using the arithmetic unit directly. Each of them either
succeeds with a new machine or fails with a fault, in which case the old machine is still there.
-/

namespace LS8

/-- Whether a machine can execute its next instruction. -/
inductive RunState where
  | running
  | halted
  /-- A fault stopped the machine; it stays latched until the machine is reset or reloaded. -/
  | faulted (fault : Fault)
  deriving DecidableEq, Repr

namespace RunState

/-- The fault that stopped the machine, if one did. -/
def latchedFault? : RunState → Option Fault
  | faulted fault => some fault
  | _ => none

/-- Whether no further instruction will execute. -/
def isTerminal : RunState → Bool
  | running => false
  | _ => true

end RunState

/-- The first number that is too large for a step limit. -/
def stepLimitBound : Nat := 0x10000000000000000

/-- What the builder of a machine chooses once and for all. -/
structure Config where
  /-- Whether execution reports trace events. -/
  tracing : Bool := false
  /-- The largest number of instructions that one `run` retires; no limit if absent. -/
  stepLimit : Option Nat := none
  deriving DecidableEq, Repr

/-- A machine. -/
structure Machine where
  memory : Memory := .zero
  registers : RegisterFile := .zero
  pc : Nat := 0
  runState : RunState := .running
  config : Config := {}
  deriving DecidableEq

namespace Machine

/-- The machine with a given configuration and everything else zero. -/
def withConfig (config : Config) : Machine := { config }

/-- The machine with the default configuration: no tracing and no step limit. -/
def new : Machine := withConfig {}

instance : Inhabited Machine := ⟨new⟩

/-- Whether a halt instruction was executed. -/
def isHalted (m : Machine) : Bool :=
  m.runState == .halted

/-- Clears the registers, the program counter and the run state. Memory stays. -/
def reset (m : Machine) : Machine :=
  { m with registers := .zero, pc := 0, runState := .running }

/-- Installs a program image and resets the machine. -/
def load (m : Machine) (image : List UInt8) : Except Fault Machine :=
  (Memory.loadImage image).map fun memory => { m with memory }.reset

/-- Applies an operation of the arithmetic unit to the registers with the given indices. The index
of the destination is checked first. -/
def alu (m : Machine) (op : AluOp) (dest src : Nat) : Except Fault (UInt8 × Machine) := do
  let dest ← Register.select dest
  let src ← Register.select src
  let (value, registers) ← m.registers.apply op dest src
  return (value, { m with registers })

/-- Replaces one memory cell. -/
def write (m : Machine) (address : Nat) (byte : UInt8) : Except Fault Machine :=
  (m.memory.write address byte).map fun memory => { m with memory }

/-- Replaces one memory cell by a value that may be too wide for it. -/
def writeValue (m : Machine) (address value : Nat) : Except Fault Machine :=
  (m.memory.writeValue address value).map fun memory => { m with memory }

/-- An image that fits is installed whatever the machine held, and it covers the whole memory. -/
theorem load_of_length_le (m : Machine) {image : List UInt8}
    (h : image.length ≤ Memory.capacity) :
    m.load image = .ok { m with memory := .ofProgram image }.reset := by
  unfold load Memory.loadImage
  rw [if_pos h]
  rfl

@[simp] theorem memory_reset (m : Machine) : m.reset.memory = m.memory := rfl

@[simp] theorem config_reset (m : Machine) : m.reset.config = m.config := rfl

@[simp] theorem pc_reset (m : Machine) : m.reset.pc = 0 := rfl

@[simp] theorem registers_reset (m : Machine) : m.reset.registers = .zero := rfl

@[simp] theorem runState_reset (m : Machine) : m.reset.runState = .running := rfl

end Machine

end LS8
