import LS8.Disassembly
import LS8.Machine.Basic

/-!
# Tracing

A trace frame shows a machine before an instruction: the program counter, the three memory cells
from there on, and the registers. No instruction is longer than three bytes, so the frame is enough
to disassemble the instruction that is about to execute.

Trace events are what a machine with tracing enabled reports while it executes, in order.
-/

namespace LS8

/-- A view of the program counter, the cells it points at and the registers. -/
structure TraceFrame where
  pc : Nat
  /-- The cells at the program counter and at the two addresses behind it, where they exist. -/
  window : Vector (Option UInt8) 3
  registers : RegisterFile
  deriving DecidableEq

namespace TraceFrame

/-- The number of memory cells in a frame. -/
def windowSize : Nat := 3

/-- A byte as two hexadecimal digits, or two dashes where there is none. -/
def cellText : Option UInt8 → String
  | some byte => hexadecimal 2 byte.toNat
  | none => "--"

/-- The frame as a line of text: the program counter, the window and the registers, all in
hexadecimal. -/
def text (frame : TraceFrame) : String :=
  "TRACE: " ++ hexadecimal 2 frame.pc ++ " |"
    ++ String.join (frame.window.toList.map fun cell => " " ++ cellText cell) ++ " |"
    ++ String.join (frame.registers.values.toList.map fun byte => " " ++ hexadecimal 2 byte.toNat)

/-- Writes the cells that exist to consecutive addresses. -/
def place : List (Option UInt8) → Nat → Memory → Except Fault Memory
  | [], _, memory => .ok memory
  | none :: cells, address, memory => place cells (address + 1) memory
  | some byte :: cells, address, memory => do
    place cells (address + 1) (← memory.write address byte)

/-- The row of the instruction at the program counter, read from the window alone. -/
def disassemble (frame : TraceFrame) : Option DisassemblyRow :=
  -- the window is put where it was taken from, into a memory that is clear otherwise
  match place frame.window.toList frame.pc .zero with
  | .ok memory => LS8.disassemble memory frame.pc
  | .error _ => none

end TraceFrame

/-- What a machine reports while it executes. -/
inductive TraceEvent where
  /-- An instruction is about to execute; `frame` shows the machine before it. -/
  | instructionStart (pc : Nat) (opcode : UInt8) (frame : TraceFrame)
  | registerWrite (register : Register) (value : UInt8)
  /-- A value was accepted by the output. -/
  | output (value : UInt8)
  | halted (pc : Nat)
  | faultRaised (fault : Fault) (pc : Nat)
  deriving DecidableEq

namespace Machine

/-- The trace frame of a machine as it is now. -/
def trace (m : Machine) : TraceFrame where
  pc := m.pc
  window := Vector.ofFn fun offset => m.memory.get? (m.pc + offset.val)
  registers := m.registers

/-- The event that opens a cycle. There is none past the end of memory, where nothing can be
fetched. -/
def startEvents (m : Machine) : List TraceEvent :=
  match m.memory.get? m.pc with
  | some opcode => [.instructionStart m.pc opcode m.trace]
  | none => []

/-- The given events if the machine traces, and none otherwise. -/
def traced (m : Machine) (events : List TraceEvent) : List TraceEvent :=
  if m.config.tracing then events else []

end Machine

end LS8
