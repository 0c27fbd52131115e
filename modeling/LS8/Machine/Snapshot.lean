import LS8.Machine.Basic

/-!
# Snapshots

A snapshot holds everything of a machine but its configuration. Its memory is a list of any length
and its program counter any number, because snapshots also come from outside; `Machine.restore`
accepts the ones that describe a machine.
-/

namespace LS8

/-- The layouts that snapshots have had so far. -/
inductive SnapshotVersion where
  | v1
  deriving DecidableEq, Repr

/-- The layout with a given number. -/
def SnapshotVersion.ofNumber? : Nat → Option SnapshotVersion
  | 1 => some v1
  | _ => none

/-- The number of a layout. -/
def SnapshotVersion.number : SnapshotVersion → Nat
  | v1 => 1

/-- The state of a machine for export, import and inspection. -/
structure Snapshot where
  version : SnapshotVersion := .v1
  pc : Nat
  registers : RegisterFile
  memory : List UInt8
  runState : RunState
  deriving DecidableEq

namespace Machine

/-- The snapshot of a machine. -/
def snapshot (m : Machine) : Snapshot where
  pc := m.pc
  registers := m.registers
  memory := m.memory.toList
  runState := m.runState

/-- Replaces the state of a machine by a snapshot and keeps its configuration. The program counter
may be at most one past the last cell, and the memory has to be complete; the program counter is
checked first. -/
def restore (m : Machine) (snapshot : Snapshot) : Except Fault Machine :=
  if Memory.capacity < snapshot.pc then
    .error (.snapshotLayout ("pc " ++ hexLiteral snapshot.pc ++ " past end of memory"))
  else
    (Memory.ofImage snapshot.memory).map fun memory =>
      { m with memory, registers := snapshot.registers, pc := snapshot.pc,
               runState := snapshot.runState }

end Machine

end LS8
