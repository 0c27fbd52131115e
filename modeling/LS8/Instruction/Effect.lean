import LS8.Instruction

/-!
# Effects

What an instruction is going to do, computed before any of it happens. An effect is a value: it can
be inspected, and the machine applies it in one place (`Machine.commit`).
-/

namespace LS8

/-- The pending effects of one instruction. -/
structure Effect where
  /-- The value to hand to the output. -/
  output : Option UInt8 := none
  /-- The register to write, with its new value. -/
  registerWrite : Option (Register × UInt8) := none
  /-- The new program counter; nothing leaves it where it is. -/
  nextPc : Option Nat := none
  halt : Bool := false
  deriving DecidableEq

namespace Instruction

/-- The effects of an instruction fetched at `pc`, over the given registers. All but the halt
instruction move the program counter behind themselves. -/
def effect (instruction : Instruction) (registers : RegisterFile) (pc : Nat) :
    Except Fault Effect :=
  let next := some (pc + instruction.length)
  match instruction with
  | hlt => .ok { halt := true }
  | ldi dest value => .ok { registerWrite := some (dest, value), nextPc := next }
  | prn src => .ok { output := some (registers.get src), nextPc := next }
  -- the arithmetic unit may refuse, in which case there is no effect
  | alu op dest src => do
    let value ← registers.evaluate op dest src
    return { registerWrite := some (dest, value), nextPc := next }

end Instruction

end LS8
