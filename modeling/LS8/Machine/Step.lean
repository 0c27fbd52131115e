import LS8.Instruction.Effect
import LS8.Sink
import LS8.Trace

/-!
# Executing one instruction

A step decodes the instruction at the program counter, computes its effects, and commits them: first
the output, then the register, the program counter and the run state. The output is the only effect
that can fail, and it comes first, so a step that faults has changed nothing but the run state, in
which the fault is latched (`Machine.step`).

The trace events of a step are part of its answer. A host that does not trace ignores them; one that
does folds over them.
-/

namespace LS8

/-- The answer to a request that may print: its result, and what it leaves of the machine and of the
sink, with the events it reports. -/
structure Response (σ α : Type) where
  /-- The value asked for, or the fault that prevented it. -/
  result : Except Fault α
  machine : Machine
  sink : σ
  events : List TraceEvent

/-- What became of one step. -/
inductive StepOutcome where
  /-- The instruction at `pc` was executed and the program counter moved on by `length`. -/
  | retired (pc length : Nat)
  | halted
  deriving DecidableEq, Repr

namespace Effect

/-- The events that report an effect, in the order in which its parts are committed. -/
def events (effect : Effect) (pc : Nat) : List TraceEvent :=
  (effect.output.map .output).toList
    ++ (effect.registerWrite.map fun (r, value) => .registerWrite r value).toList
    ++ if effect.halt then [.halted pc] else []

/-- Applies everything but the output to a machine. -/
def applyTo (effect : Effect) (m : Machine) : Machine :=
  { m with
    registers := match effect.registerWrite with
      | some (r, value) => m.registers.set r value
      | none => m.registers
    pc := effect.nextPc.getD m.pc
    runState := if effect.halt then .halted else m.runState }

end Effect

namespace Machine

variable {σ : Type}

/-- Commits the effects of the instruction at `pc`. If the sink refuses the output, nothing is
committed. -/
def commit (sink : Sink σ) (m : Machine) (effect : Effect) (pc : Nat) (s : σ) : Response σ Unit :=
  let done (s : σ) : Response σ Unit :=
    ⟨.ok (), effect.applyTo m, s, m.traced (effect.events pc)⟩
  match effect.output with
  | none => done s
  | some value =>
    -- the output is committed first, because it is the only part that can fail
    match sink.emit s value with
    | (true, s) => done s
    | (false, s) => ⟨.error (.outputFailed pc), m, s, []⟩

/-- The instruction at the program counter, with its effects. -/
def next (m : Machine) : Except Fault (Instruction × Effect) := do
  let instruction ← decode m.memory m.pc
  return (instruction, ← instruction.effect m.registers m.pc)

/-- Fetches, decodes and executes the instruction at the program counter, whatever the run state. -/
def cycle (sink : Sink σ) (m : Machine) (s : σ) : Response σ StepOutcome :=
  match m.next with
  -- an instruction that cannot be decoded has been started, too
  | .error fault => ⟨.error fault, m, s, m.traced m.startEvents⟩
  | .ok (instruction, effect) =>
    let committed := m.commit sink effect m.pc s
    { committed with
      result := committed.result.map fun _ =>
        if effect.halt then .halted else .retired m.pc instruction.length
      events := m.traced m.startEvents ++ committed.events }

/-- **One step.** A halted machine stays halted and a faulted machine repeats its fault, both
without any effect. A running machine executes one instruction; if that faults, the fault is
latched. -/
def step (sink : Sink σ) (m : Machine) (s : σ) : Response σ StepOutcome :=
  match m.runState with
  | .faulted fault => ⟨.error fault, m, s, []⟩
  | .halted => ⟨.ok .halted, m, s, []⟩
  | .running =>
    let cycled := m.cycle sink s
    match cycled.result with
    | .ok _ => cycled
    | .error fault =>
      -- the report of the fault comes behind those of the cycle
      { cycled with
        machine := { cycled.machine with runState := .faulted fault }
        events := cycled.events ++ m.traced [.faultRaised fault m.pc] }

end Machine

end LS8
