import Mathlib.Data.List.ReduceOption
import LS8.Proofs.Machine.AllOrNothing
import LS8.Proofs.Machine.Offers

/-!
# Committing effects

An effect is made of up to four parts: a value to print, a register to write, a new program counter,
and a halt. Instructions need only a few of the combinations, but a host may commit any of them, to
a machine in any run state and for any program counter. `Machine.commit_exact` says for all of them
what a commit does.

A commit has one way to fail, a sink that refuses the value, and then nothing has happened but that
the sink was asked. Otherwise the machine has changed in the parts that the effect names and in no
other (`Effect.Applied`), and the parts are reported one after another (`Effect.reports`).

`Machine.commit` computes all this at once. What it stands for is a sequence of writes to one
machine, with an event behind each of them (`InPlace.commitReporting`). The sequence takes nothing
back, so it can only leave the old machine behind a failure if everything that can fail comes before
everything that writes. That it comes to the same as `Machine.commit`
(`InPlace.carryOut_commitReporting`) is therefore a statement on the order of the parts.
-/

namespace LS8

variable {σ : Type}

namespace Effect

/-- **Exactly the given parts.** The second machine is the first one with the parts replaced that
the effect names. -/
structure Applied (effect : Effect) (m m' : Machine) : Prop where
  memory_eq : m'.memory = m.memory
  config_eq : m'.config = m.config
  written : ∀ r value, effect.registerWrite = some (r, value) →
    m'.registers.get r = value ∧ ∀ q, q ≠ r → m'.registers.get q = m.registers.get q
  unwritten : effect.registerWrite = none → m'.registers = m.registers
  moved : ∀ next, effect.nextPc = some next → m'.pc = next
  unmoved : effect.nextPc = none → m'.pc = m.pc
  halted : effect.halt = true → m'.runState = .halted
  unhalted : effect.halt = false → m'.runState = m.runState

/-- The events that could be reported, in their order, and nothing for the parts that are absent. -/
def reports (effect : Effect) (pc : Nat) : List (Option TraceEvent) :=
  [effect.output.map .output,
    effect.registerWrite.map fun (r, value) => .registerWrite r value,
    if effect.halt then some (.halted pc) else none]

/-- What an effect makes of a machine is what it applies to it. -/
theorem applied_applyTo (effect : Effect) (m : Machine) : effect.Applied m (effect.applyTo m) := by
  obtain ⟨output, registerWrite, nextPc, halt⟩ := effect
  -- each field of the effect stands for one field of the machine, and its absence for no change
  exact {
    memory_eq := rfl
    config_eq := rfl
    written := by
      rintro r value h
      obtain rfl : registerWrite = some (r, value) := h
      exact ⟨RegisterFile.get_set_self _ _ _, fun _ hq => RegisterFile.get_set_of_ne hq⟩
    unwritten := by
      intro h
      obtain rfl : registerWrite = none := h
      rfl
    moved := by
      intro next h
      obtain rfl : nextPc = some next := h
      rfl
    unmoved := by
      intro h
      obtain rfl : nextPc = none := h
      rfl
    halted := by
      intro h
      obtain rfl : halt = true := h
      rfl
    unhalted := by
      intro h
      obtain rfl : halt = false := h
      rfl }

/-- What is reported are the events of the parts that are present. -/
theorem events_eq_reduceOption (effect : Effect) (pc : Nat) :
    effect.events pc = (effect.reports pc).reduceOption := by
  obtain ⟨output, registerWrite, nextPc, halt⟩ := effect
  -- each of the three reports is there or not
  cases output <;> cases registerWrite <;> cases halt <;> rfl

end Effect

namespace Machine

variable {sink : Sink σ} {m : Machine} {effect : Effect} {pc : Nat} {s : σ}

theorem traced_nil (m : Machine) : m.traced [] = [] := ite_self []

/-- A commit that goes through has applied its effect and reports it. -/
theorem applied_of_commit (h : (m.commit sink effect pc s).result = .ok ()) :
    effect.Applied m (m.commit sink effect pc s).machine ∧
      (m.commit sink effect pc s).events =
        if m.config.tracing then (effect.reports pc).reduceOption else [] := by
  rw [← effect.events_eq_reduceOption]
  -- both ways to succeed apply the effect, and the third one does not succeed
  cases commit_cases sink m effect pc s with
  | silent _ hanswer =>
    rw [hanswer]
    exact ⟨effect.applied_applyTo m, rfl⟩
  | accepted value s' _ _ hanswer =>
    rw [hanswer]
    exact ⟨effect.applied_applyTo m, rfl⟩
  | refused value s' _ _ hanswer =>
    rw [hanswer] at h
    cases h

/-- A commit that is refused reports nothing. -/
theorem events_commit_of_error {fault : Fault}
    (h : (m.commit sink effect pc s).result = .error fault) :
    (m.commit sink effect pc s).events = [] := by
  obtain ⟨value, s', -, -, hanswer⟩ := commit_of_error h
  rw [hanswer]

/-- **The sink is asked once for each value**, and there is one value at most. -/
theorem commit_recording (log : List (UInt8 × Bool)) :
    m.commit sink.recording effect pc (s, log) =
      (m.commit sink effect pc s).mapSink fun s' =>
        (s', log ++ effect.output.toList.map fun value => (value, (sink.emit s value).1)) := by
  -- the recording sink answers as the sink does, so the two commits go the same way
  cases commit_cases sink m effect pc s with
  | silent houtput hanswer =>
    rw [hanswer, commit_of_silent houtput, houtput]
    simp [Response.mapSink]
  | accepted value s' houtput hemit hanswer =>
    have hrecord : sink.recording.emit (s, log) value = (true, s', log ++ [(value, true)]) := by
      simp [Sink.recording, hemit]
    rw [hanswer, commit_of_accepted houtput hrecord, houtput]
    simp [Response.mapSink, hemit]
  | refused value s' houtput hemit hanswer =>
    have hrecord : sink.recording.emit (s, log) value = (false, s', log ++ [(value, false)]) := by
      simp [Sink.recording, hemit]
    rw [hanswer, commit_of_refused houtput hrecord, houtput]
    simp [Response.mapSink, hemit]

end Machine

/-! ### One part after another -/

/-- The sink with a log beside it, which it leaves alone. -/
def Sink.besideLog (sink : Sink σ) : Sink (σ × List TraceEvent) where
  emit state value :=
    ((sink.emit state.1 value).1, (sink.emit state.1 value).2, state.2)

namespace InPlace

/-- Appends an event to the log, if the machine traces. -/
def report (event : TraceEvent) : InPlace (σ × List TraceEvent) Fault Unit := do
  let m ← look
  modify fun c => { c with sink := (c.sink.1, c.sink.2 ++ m.traced [event]) }

/-- Prints a value and reports it. -/
def commitOutput (sink : Sink σ) (pc : Nat) (value : UInt8) :
    InPlace (σ × List TraceEvent) Fault Unit := do
  print sink.besideLog pc value
  report (.output value)

/-- Writes a register and reports it. -/
def commitRegister (r : Register) (value : UInt8) : InPlace (σ × List TraceEvent) Fault Unit := do
  adjust fun m => { m with registers := m.registers.set r value }
  report (.registerWrite r value)

/-- Stops the machine and reports it. -/
def commitHalt (pc : Nat) : InPlace (σ × List TraceEvent) Fault Unit := do
  adjust fun m => { m with runState := .halted }
  report (.halted pc)

/-- Commits the parts behind the output: the register, the program counter and the halt. -/
def concludeReporting (effect : Effect) (pc : Nat) : InPlace (σ × List TraceEvent) Fault Unit := do
  effect.registerWrite.forM fun (r, value) => commitRegister r value
  effect.nextPc.forM fun next => adjust fun m => { m with pc := next }
  if effect.halt then commitHalt pc

/-- **Commits the parts of an effect one by one**, and reports each of them when it is done. -/
def commitReporting (sink : Sink σ) (effect : Effect) (pc : Nat) :
    InPlace (σ × List TraceEvent) Fault Unit := do
  effect.output.forM (commitOutput sink pc)
  concludeReporting effect pc

variable {sink : Sink σ} {m : Machine} {effect : Effect} {pc : Nat} {s s' : σ} {value : UInt8}
variable {log : List TraceEvent}

/-- An accepted value is reported, and nothing of the machine has changed yet. -/
theorem carryOut_commitOutput_of_accepted (h : sink.emit s value = (true, s')) :
    (commitOutput sink pc value).carryOut ⟨m, s, log⟩ =
      (.ok (), ⟨m, s', log ++ m.traced [.output value]⟩) := by
  unfold commitOutput
  rw [carryOut_bind, carryOut_print]
  simp only [Sink.besideLog, h]
  rfl

/-- A value that is refused is not reported. -/
theorem carryOut_commitOutput_of_refused (h : sink.emit s value = (false, s')) :
    (commitOutput sink pc value).carryOut ⟨m, s, log⟩ =
      (.error (.outputFailed pc), ⟨m, s', log⟩) := by
  unfold commitOutput
  rw [carryOut_bind, carryOut_print]
  simp only [Sink.besideLog, h]
  rfl

/-- The register is written if there is one to write, and this cannot fail. -/
theorem carryOut_register (write : Option (Register × UInt8)) :
    (write.forM fun (r, value) => commitRegister r value :
        InPlace (σ × List TraceEvent) Fault Unit).carryOut ⟨m, s, log⟩ =
      (.ok (), ⟨{ m with
          registers := match write with
            | some (r, value) => m.registers.set r value
            | none => m.registers },
        s, log ++ m.traced (write.map fun (r, value) => .registerWrite r value).toList⟩) := by
  cases write with
  | none =>
    rw [Option.map_none, Option.toList_none, Machine.traced_nil, List.append_nil]
    rfl
  | some write => rfl

/-- The program counter moves if the effect says where to. -/
theorem carryOut_next (next : Option Nat) :
    (next.forM fun next => adjust fun m => { m with pc := next } :
        InPlace (σ × List TraceEvent) Fault Unit).carryOut ⟨m, s, log⟩ =
      (.ok (), ⟨{ m with pc := next.getD m.pc }, s, log⟩) := by
  cases next with
  | none => rfl
  | some next => rfl

/-- A halt is reported and latched, and otherwise this part does nothing. -/
theorem carryOut_halt (halt : Bool) (pc : Nat) :
    (if halt then commitHalt pc else pure () :
        InPlace (σ × List TraceEvent) Fault Unit).carryOut ⟨m, s, log⟩ =
      (.ok (), ⟨{ m with runState := if halt then .halted else m.runState }, s,
        log ++ m.traced (if halt then [.halted pc] else [])⟩) := by
  cases halt with
  | false =>
    rw [if_neg Bool.false_ne_true, if_neg Bool.false_ne_true, if_neg Bool.false_ne_true,
      Machine.traced_nil, List.append_nil]
    rfl
  | true => rfl

/-- Behind the output nothing can fail, and the log gets the events of the parts that are there. -/
theorem carryOut_concludeReporting (effect : Effect) (pc : Nat) :
    (concludeReporting effect pc).carryOut ⟨m, s, log⟩ =
      (.ok (), ⟨effect.applyTo m, s,
        log ++ m.traced ({ effect with output := none }.events pc)⟩) := by
  unfold concludeReporting
  rw [carryOut_bind, carryOut_register]
  change (_ >>= _ : InPlace (σ × List TraceEvent) Fault Unit).carryOut _ = _
  rw [carryOut_bind, carryOut_next]
  change (if effect.halt then commitHalt pc else pure () :
    InPlace (σ × List TraceEvent) Fault Unit).carryOut _ = _
  rw [carryOut_halt]
  -- the machine traces all along as it did at first
  change ((Except.ok () : Except Fault Unit),
    (⟨effect.applyTo m, (s, log ++ m.traced _ ++ m.traced _)⟩ : Stage (σ × List TraceEvent))) = _
  rw [List.append_assoc, Machine.traced_append]
  rfl

/-- **One part after another is the whole at once**: the sequence leaves what the commit leaves, and
has logged what the commit reports. -/
theorem carryOut_commitReporting (sink : Sink σ) (m : Machine) (effect : Effect) (pc : Nat) (s : σ)
    (log : List TraceEvent) :
    (commitReporting sink effect pc).carryOut ⟨m, s, log⟩ =
      ((m.commit sink effect pc s).result, ⟨(m.commit sink effect pc s).machine,
        (m.commit sink effect pc s).sink, log ++ (m.commit sink effect pc s).events⟩) := by
  -- the event of the output comes first, and behind it those of the parts that cannot fail
  have hevents : effect.events pc =
      (effect.output.map TraceEvent.output).toList ++ { effect with output := none }.events pc := by
    simp [Effect.events]
  unfold commitReporting
  cases Machine.commit_cases sink m effect pc s with
  | silent houtput hanswer =>
    rw [hanswer, hevents, houtput]
    change (concludeReporting effect pc).carryOut ⟨m, s, log⟩ = _
    rw [carryOut_concludeReporting]
    rfl
  | accepted value s' houtput hemit hanswer =>
    rw [hanswer, hevents, houtput]
    change (commitOutput sink pc value >>= fun _ => concludeReporting effect pc).carryOut _ = _
    rw [carryOut_bind, carryOut_commitOutput_of_accepted hemit]
    change (concludeReporting effect pc).carryOut ⟨m, s', log ++ m.traced [.output value]⟩ = _
    rw [carryOut_concludeReporting, List.append_assoc, Machine.traced_append]
    rfl
  | refused value s' houtput hemit hanswer =>
    -- the sequence breaks off before anything of the machine was written
    rw [hanswer, houtput, List.append_nil]
    change (commitOutput sink pc value >>= fun _ => concludeReporting effect pc).carryOut _ = _
    rw [carryOut_bind, carryOut_commitOutput_of_refused hemit]

end InPlace

namespace Machine

/-- What a commit does: when it fails, what it leaves in either case, what the sink hears of it and
what is reported, and that it goes part by part. -/
structure CommitsExactly (sink : Sink σ) (m : Machine) (effect : Effect) (pc : Nat) (s : σ) :
    Prop where
  refused_iff : ∀ fault, (m.commit sink effect pc s).result = .error fault ↔
    (∃ value, effect.output = some value ∧ (sink.emit s value).1 = false) ∧
      fault = .outputFailed pc
  unchanged : ∀ fault, (m.commit sink effect pc s).result = .error fault →
    (m.commit sink effect pc s).machine = m ∧ (m.commit sink effect pc s).events = []
  applied : (m.commit sink effect pc s).result = .ok () →
    effect.Applied m (m.commit sink effect pc s).machine
  reported : (m.commit sink effect pc s).result = .ok () →
    (m.commit sink effect pc s).events =
      if m.config.tracing then (effect.reports pc).reduceOption else []
  /-- A record beside the sink shows one offer for the output, and no other. -/
  offered_once : ∀ log, m.commit sink.recording effect pc (s, log) =
    (m.commit sink effect pc s).mapSink fun s' =>
      (s', log ++ effect.output.toList.map fun value => (value, (sink.emit s value).1))
  in_order : ∀ log, (InPlace.commitReporting sink effect pc).carryOut ⟨m, s, log⟩ =
    ((m.commit sink effect pc s).result, ⟨(m.commit sink effect pc s).machine,
      (m.commit sink effect pc s).sink, log ++ (m.commit sink effect pc s).events⟩)

/-- **A commit applies any effect exactly.** The machine may be in any run state, the effect may be
one that no instruction has, and the new program counter any number. -/
theorem commit_exact (sink : Sink σ) (m : Machine) (effect : Effect) (pc : Nat) (s : σ) :
    CommitsExactly sink m effect pc s where
  refused_iff := fun _ => commit_eq_error_iff
  unchanged := fun _ h => ⟨machine_commit_of_error h, events_commit_of_error h⟩
  applied := fun h => (applied_of_commit h).1
  reported := fun h => (applied_of_commit h).2
  offered_once := commit_recording
  in_order := InPlace.carryOut_commitReporting sink m effect pc s

end Machine

end LS8
