import LS8.Machine.Progress

/-!
# Running

A run repeats steps until the machine halts or faults, until a limit on the number of retired
instructions is reached, or until a stop signal is seen. The limit and the signal are looked at
before each step. Halting is not a retired instruction, so a machine whose next instruction is the
halt instruction still executes it when the limit is used up.

Every retired instruction moves the program counter towards the end of memory, so every run ends.
-/

namespace LS8

/-- Why a run ended without a fault. -/
inductive StopReason where
  | halted
  /-- The limit is used up and the next instruction is not the halt instruction. -/
  | stepLimit
  /-- The stop signal was seen before an instruction. -/
  | interrupted
  deriving DecidableEq, Repr

/-- How a run ended. -/
structure RunOutcome where
  /-- The number of instructions retired, not counting the halt instruction. -/
  steps : Nat
  stop : StopReason
  deriving DecidableEq, Repr

/-- The outcome of a run with one more retired instruction in front. -/
def RunOutcome.succ (outcome : RunOutcome) : RunOutcome :=
  { outcome with steps := outcome.steps + 1 }

/-- The answer of a run that first retires one instruction, reporting `events`, and then goes on
to the given answer. -/
def Response.afterRetired {σ : Type} (events : List TraceEvent) (rest : Response σ RunOutcome) :
    Response σ RunOutcome :=
  { rest with result := rest.result.map .succ, events := events ++ rest.events }

namespace Machine

variable {σ : Type}

/-- Whether the next instruction is the halt instruction. -/
def atHalt (m : Machine) : Bool :=
  (m.memory.get? m.pc).bind Opcode.ofByte? == some .hlt

/-- **The run loop.** It retires at most `limit` instructions and ends when `stop` holds of the
state of the sink. Of several reasons to end, a terminal run state comes first, then the limit,
then the stop signal. -/
def runLoop (sink : Sink σ) (stop : σ → Bool) (limit : Option Nat) (m : Machine) (s : σ) :
    Response σ RunOutcome :=
  match m.runState with
  | .halted => ⟨.ok ⟨0, .halted⟩, m, s, []⟩
  | .faulted fault => ⟨.error fault, m, s, []⟩
  | .running =>
    -- a halt instruction is executed even at the limit, since it does not count as a step
    if limit = some 0 ∧ ¬ m.atHalt then ⟨.ok ⟨0, .stepLimit⟩, m, s, []⟩
    else if stop s then ⟨.ok ⟨0, .interrupted⟩, m, s, []⟩
    else
      match h : (m.step sink s).result with
      | .error fault =>
        ⟨.error fault, (m.step sink s).machine, (m.step sink s).sink, (m.step sink s).events⟩
      | .ok .halted =>
        ⟨.ok ⟨0, .halted⟩, (m.step sink s).machine, (m.step sink s).sink, (m.step sink s).events⟩
      | .ok (.retired _ _) =>
        -- the steps and the events of the rest of the run are added to those of this one
        (runLoop sink stop (limit.map (· - 1)) (m.step sink s).machine
          (m.step sink s).sink).afterRetired (m.step sink s).events
termination_by 256 - m.pc
decreasing_by
  have := pc_lt_of_retired h
  omega

/-- Runs under the configured step limit. -/
def run (sink : Sink σ) (m : Machine) (s : σ) : Response σ RunOutcome :=
  m.runLoop sink (fun _ => false) m.config.stepLimit s

/-- Runs under the given step limit instead of the configured one. -/
def runWithLimit (sink : Sink σ) (limit : Nat) (m : Machine) (s : σ) : Response σ RunOutcome :=
  m.runLoop sink (fun _ => false) (some limit) s

/-- Runs under the configured step limit until a stop signal is seen. The signal may depend on what
the sink has done so far. -/
def runUntil (sink : Sink σ) (stop : σ → Bool) (m : Machine) (s : σ) : Response σ RunOutcome :=
  m.runLoop sink stop m.config.stepLimit s

end Machine

end LS8
