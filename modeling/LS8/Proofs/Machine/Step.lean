import LS8.Machine.Run

/-!
# One step of a running machine

`Machine.step` decodes an instruction, computes its effects and commits them. This module says once
what the three do together: six equations, one for each instruction that goes through and one for
each way to fault. `Machine.StepCase` collects them, and `Machine.step_cases` says that there is no
seventh. Every later fact about steps is a case analysis over `StepCase`; no later proof unfolds
`Machine.cycle` or `Machine.commit` again. Where the answer is known to be a fault or a retired
instruction, `Machine.fault_cases` and `Machine.retire_cases` leave the cases that can give it.

Three consequences are used throughout:

* `Machine.advance_of_retired`, for a step that retires an instruction: the program counter moves on
  by two or three cells and stays inside the memory or right behind its end, and nothing but it and
  the registers changes.
* `Machine.step_of_halted` and `Machine.step_of_error`, for the steps that end a run: nothing of the
  machine but the run state changes.
* `Machine.atHalt_iff`: the look-ahead of the run loop holds exactly when the next step halts.
-/

namespace LS8

/-- The instruction set has one opcode for the arithmetic unit, so only multiplications are ever
decoded. -/
theorem op_of_decode {memory : Memory} {pc : Nat} {op : AluOp} {dest src : Register}
    (h : decode memory pc = .ok (.alu op dest src)) : op = .mul := by
  cases decode_cases h with
  | mul dest src => rfl

/-- The halt instruction is a single byte, so decoding it only looks at that byte. -/
theorem decode_eq_hlt_iff {memory : Memory} {pc : Nat} :
    decode memory pc = .ok .hlt ↔ (memory.get? pc).bind Opcode.ofByte? = some .hlt := by
  constructor
  · intro h
    -- no other instruction has this opcode
    cases decode_cases h with
    | hlt hopcode =>
      rw [Memory.read_eq_ok_iff.mp hopcode, Option.bind_some, Opcode.ofByte?_byte]
  · intro h
    obtain ⟨byte, hbyte, hop⟩ := Option.bind_eq_some_iff.mp h
    refine bind_eq_ok_iff.mpr ⟨byte, Memory.read_eq_ok_iff.mpr hbyte, ?_⟩
    rw [hop]
    rfl

namespace Machine

variable {σ : Type} {sink : Sink σ} {m : Machine} {s : σ}

/-! ### Events -/

/-- Events that are reported one after the other are reported together. -/
theorem traced_append (a b : List TraceEvent) : m.traced a ++ m.traced b = m.traced (a ++ b) := by
  unfold traced
  split
  · rfl
  · rfl

theorem traced_of_tracing (h : m.config.tracing = true) (events : List TraceEvent) :
    m.traced events = events := by
  unfold traced
  rw [if_pos h]

/-! ### One equation for each way to go -/

/-- A running machine steps by one cycle, and latches the fault if there is one. -/
theorem step_eq_cycle (hm : m.runState = .running) :
    m.step sink s = match (m.cycle sink s).result with
      | .ok _ => m.cycle sink s
      | .error fault =>
        { m.cycle sink s with
          machine := { (m.cycle sink s).machine with runState := .faulted fault }
          events := (m.cycle sink s).events ++ m.traced [.faultRaised fault m.pc] } := by
  cases h : (m.cycle sink s).result with
  | ok outcome => simp [step, hm, h]
  | error fault => simp [step, hm, h]

/-- A cycle commits the effects of the instruction that it decoded. -/
theorem cycle_of_decode {i : Instruction} {effect : Effect} (hd : decode m.memory m.pc = .ok i)
    (he : i.effect m.registers m.pc = .ok effect) :
    m.cycle sink s =
      { m.commit sink effect m.pc s with
        result := (m.commit sink effect m.pc s).result.map fun _ =>
          if effect.halt then .halted else .retired m.pc i.length
        events := m.traced m.startEvents ++ (m.commit sink effect m.pc s).events } := by
  unfold cycle
  rw [next_eq_ok_iff.mpr ⟨hd, he⟩]

/-- The answer of a step that faults before anything was committed: the fault is latched and
nothing else changes but the sink, which may have refused a value. -/
def stepFault (m : Machine) (fault : Fault) (s : σ) : Response σ StepOutcome where
  result := .error fault
  machine := { m with runState := .faulted fault }
  sink := s
  events := m.traced (m.startEvents ++ [.faultRaised fault m.pc])

/-- The answer of a step that retires an instruction of the given length: the program counter moves
behind it and the registers are replaced. -/
def stepRetired (m : Machine) (length : Nat) (registers : RegisterFile) (s : σ)
    (event : TraceEvent) : Response σ StepOutcome where
  result := .ok (.retired m.pc length)
  machine := { m with registers, pc := m.pc + length }
  sink := s
  events := m.traced (m.startEvents ++ [event])

/-- The answer of a step that executes the halt instruction. -/
def stepHalted (m : Machine) (s : σ) : Response σ StepOutcome where
  result := .ok .halted
  machine := { m with runState := .halted }
  sink := s
  events := m.traced (m.startEvents ++ [.halted m.pc])

/-- Where nothing can be decoded, a step faults in front of any commit. -/
theorem step_of_decode_error (hm : m.runState = .running) {fault : Fault}
    (hd : decode m.memory m.pc = .error fault) : m.step sink s = m.stepFault fault s := by
  have hnext : m.next = .error fault := by
    unfold next
    rw [hd]
    rfl
  have hcycle : m.cycle sink s = ⟨.error fault, m, s, m.traced m.startEvents⟩ := by
    unfold cycle
    rw [hnext]
  rw [step_eq_cycle hm, hcycle]
  simp only [stepFault, traced_append]

/-- A halt instruction changes the run state and nothing else. -/
theorem step_hlt (hm : m.runState = .running) (hd : decode m.memory m.pc = .ok .hlt) :
    m.step sink s = m.stepHalted s := by
  rw [step_eq_cycle hm, cycle_of_decode hd rfl]
  simp [commit, Effect.applyTo, Effect.events, Except.map, stepHalted, traced_append]

/-- A load writes its byte to its register. -/
theorem step_ldi (hm : m.runState = .running) {dest : Register} {value : UInt8}
    (hd : decode m.memory m.pc = .ok (.ldi dest value)) :
    m.step sink s = m.stepRetired 3 (m.registers.set dest value) s (.registerWrite dest value) := by
  rw [step_eq_cycle hm, cycle_of_decode hd rfl]
  simp [commit, Effect.applyTo, Effect.events, Except.map, stepRetired, traced_append]

/-- A multiplication writes its product, as far as a byte holds it. -/
theorem step_mul (hm : m.runState = .running) {dest src : Register}
    (hd : decode m.memory m.pc = .ok (.alu .mul dest src)) :
    m.step sink s =
      m.stepRetired 3 (m.registers.set dest (m.registers.get dest * m.registers.get src)) s
        (.registerWrite dest (m.registers.get dest * m.registers.get src)) := by
  rw [step_eq_cycle hm, cycle_of_decode hd rfl]
  simp [commit, Effect.applyTo, Effect.events, Except.map, stepRetired, traced_append]

/-- A print whose value is taken leaves the registers alone. -/
theorem step_prn_accepted (hm : m.runState = .running) {src : Register} {s' : σ}
    (hd : decode m.memory m.pc = .ok (.prn src))
    (hs : sink.emit s (m.registers.get src) = (true, s')) :
    m.step sink s = m.stepRetired 2 m.registers s' (.output (m.registers.get src)) := by
  rw [step_eq_cycle hm, cycle_of_decode hd rfl]
  simp [commit, hs, Effect.applyTo, Effect.events, Except.map, stepRetired, traced_append]

/-- A refused value is the only fault that comes after decoding. The output is committed first, so
nothing else was. -/
theorem step_prn_refused (hm : m.runState = .running) {src : Register} {s' : σ}
    (hd : decode m.memory m.pc = .ok (.prn src))
    (hs : sink.emit s (m.registers.get src) = (false, s')) :
    m.step sink s = m.stepFault (.outputFailed m.pc) s' := by
  rw [step_eq_cycle hm, cycle_of_decode hd rfl]
  simp [commit, hs, Except.map, stepFault, traced_append]

/-! ### The cases of a step -/

/-- What a step of a running machine can do: what was decoded, and the answer that follows. -/
inductive StepCase (sink : Sink σ) (m : Machine) (s : σ) : Prop
  | undecodable (fault : Fault) (decoded : decode m.memory m.pc = .error fault)
      (answer : m.step sink s = m.stepFault fault s)
  | hlt (decoded : decode m.memory m.pc = .ok .hlt) (answer : m.step sink s = m.stepHalted s)
  | ldi (dest : Register) (value : UInt8) (decoded : decode m.memory m.pc = .ok (.ldi dest value))
      (answer : m.step sink s =
        m.stepRetired 3 (m.registers.set dest value) s (.registerWrite dest value))
  | mul (dest src : Register) (decoded : decode m.memory m.pc = .ok (.alu .mul dest src))
      (answer : m.step sink s =
        m.stepRetired 3 (m.registers.set dest (m.registers.get dest * m.registers.get src)) s
          (.registerWrite dest (m.registers.get dest * m.registers.get src)))
  | accepted (src : Register) (s' : σ) (decoded : decode m.memory m.pc = .ok (.prn src))
      (emitted : sink.emit s (m.registers.get src) = (true, s'))
      (answer : m.step sink s = m.stepRetired 2 m.registers s' (.output (m.registers.get src)))
  | refused (src : Register) (s' : σ) (decoded : decode m.memory m.pc = .ok (.prn src))
      (emitted : sink.emit s (m.registers.get src) = (false, s'))
      (answer : m.step sink s = m.stepFault (.outputFailed m.pc) s')

/-- **The cases are exhaustive.** -/
theorem step_cases (sink : Sink σ) (s : σ) (hm : m.runState = .running) : StepCase sink m s := by
  cases hd : decode m.memory m.pc with
  | error fault => exact .undecodable fault hd (step_of_decode_error hm hd)
  | ok i =>
    cases i with
    | hlt => exact .hlt hd (step_hlt hm hd)
    | ldi dest value => exact .ldi dest value hd (step_ldi hm hd)
    | prn src =>
      -- the only place where the sink is asked, and where its answer matters
      cases hs : sink.emit s (m.registers.get src) with
      | mk taken s' =>
        cases taken with
        | true => exact .accepted src s' hd hs (step_prn_accepted hm hd hs)
        | false => exact .refused src s' hd hs (step_prn_refused hm hd hs)
    | alu op dest src =>
      obtain rfl := op_of_decode hd
      exact .mul dest src hd (step_mul hm hd)

/-- How a step of a running machine faults: nothing could be decoded, or the sink refused the
value. -/
inductive FaultCase (sink : Sink σ) (m : Machine) (s : σ) : Fault → Prop
  | undecodable (fault : Fault) (decoded : decode m.memory m.pc = .error fault)
      (answer : m.step sink s = m.stepFault fault s) : FaultCase sink m s fault
  | refused (src : Register) (s' : σ) (decoded : decode m.memory m.pc = .ok (.prn src))
      (emitted : sink.emit s (m.registers.get src) = (false, s'))
      (answer : m.step sink s = m.stepFault (.outputFailed m.pc) s') :
      FaultCase sink m s (.outputFailed m.pc)

/-- These are the only ways to fault. -/
theorem fault_cases (hm : m.runState = .running) {fault : Fault}
    (h : (m.step sink s).result = .error fault) : FaultCase sink m s fault := by
  -- the four other cases answer without a fault
  cases step_cases sink s hm with
  | undecodable f hd hstep =>
    rw [hstep] at h
    cases h
    exact .undecodable fault hd hstep
  | refused src s' hd hs hstep =>
    rw [hstep] at h
    cases h
    exact .refused src s' hd hs hstep
  | hlt hd hstep => rw [hstep] at h; cases h
  | ldi dest value hd hstep => rw [hstep] at h; cases h
  | mul dest src hd hstep => rw [hstep] at h; cases h
  | accepted src s' hd hs hstep => rw [hstep] at h; cases h

/-- How a step retires an instruction at a program counter, and of which length. -/
inductive RetireCase (sink : Sink σ) (m : Machine) (s : σ) : Nat → Nat → Prop
  | ldi (dest : Register) (value : UInt8) (decoded : decode m.memory m.pc = .ok (.ldi dest value))
      (answer : m.step sink s =
        m.stepRetired 3 (m.registers.set dest value) s (.registerWrite dest value)) :
      RetireCase sink m s m.pc 3
  | mul (dest src : Register) (decoded : decode m.memory m.pc = .ok (.alu .mul dest src))
      (answer : m.step sink s =
        m.stepRetired 3 (m.registers.set dest (m.registers.get dest * m.registers.get src)) s
          (.registerWrite dest (m.registers.get dest * m.registers.get src))) :
      RetireCase sink m s m.pc 3
  | accepted (src : Register) (s' : σ) (decoded : decode m.memory m.pc = .ok (.prn src))
      (emitted : sink.emit s (m.registers.get src) = (true, s'))
      (answer : m.step sink s = m.stepRetired 2 m.registers s' (.output (m.registers.get src))) :
      RetireCase sink m s m.pc 2

/-- These are the only ways to retire an instruction. -/
theorem retire_cases {pc length : Nat} (h : (m.step sink s).result = .ok (.retired pc length)) :
    RetireCase sink m s pc length := by
  have hm : m.runState = .running := (step_of_retired h).1
  -- a step that faults or halts retires nothing
  cases step_cases sink s hm with
  | undecodable fault hd hstep => rw [hstep] at h; cases h
  | hlt hd hstep => rw [hstep] at h; cases h
  | refused src s' hd hs hstep => rw [hstep] at h; cases h
  | ldi dest value hd hstep =>
    rw [hstep] at h
    cases h
    exact .ldi dest value hd hstep
  | mul dest src hd hstep =>
    rw [hstep] at h
    cases h
    exact .mul dest src hd hstep
  | accepted src s' hd hs hstep =>
    rw [hstep] at h
    cases h
    exact .accepted src s' hd hs hstep

/-! ### What a step leaves alone -/

/-- What a retired instruction of the given length makes of a machine. The registers are the only
part that this says nothing about. -/
structure Advance (m : Machine) (length : Nat) (m' : Machine) : Prop where
  length_eq : length = 2 ∨ length = 3
  pc_eq : m'.pc = m.pc + length
  pc_le : m'.pc ≤ 256
  runState_eq : m'.runState = .running
  memory_eq : m'.memory = m.memory
  config_eq : m'.config = m.config

/-- The answer for a retired instruction moves on by the length of the instruction. -/
theorem advance_stepRetired (hm : m.runState = .running) {i : Instruction} {length : Nat}
    {registers : RegisterFile} {event : TraceEvent} (hd : decode m.memory m.pc = .ok i)
    (hi : i.length = length) (hlength : length = 2 ∨ length = 3) :
    Advance m length (m.stepRetired length registers s event).machine where
  length_eq := hlength
  pc_eq := rfl
  pc_le := by
    -- the last byte of the instruction is inside the memory
    rw [← hi]
    exact add_length_le_of_decode hd
  runState_eq := hm
  memory_eq := rfl
  config_eq := rfl

/-- **A retired instruction moves on by its length.** -/
theorem advance_of_retired {pc length : Nat}
    (h : (m.step sink s).result = .ok (.retired pc length)) :
    pc = m.pc ∧ Advance m length (m.step sink s).machine := by
  have hm : m.runState = .running := (step_of_retired h).1
  cases retire_cases h with
  | ldi dest value hd hstep =>
    rw [hstep]
    exact ⟨rfl, advance_stepRetired hm hd (Instruction.length_ldi dest value) (.inr rfl)⟩
  | mul dest src hd hstep =>
    rw [hstep]
    exact ⟨rfl, advance_stepRetired hm hd (Instruction.length_alu .mul dest src) (.inr rfl)⟩
  | accepted src s' hd hs hstep =>
    rw [hstep]
    exact ⟨rfl, advance_stepRetired hm hd (Instruction.length_prn src) (.inl rfl)⟩

/-- A running machine halts by executing a halt instruction, which the sink never hears of. -/
theorem step_of_halted (hm : m.runState = .running) (h : (m.step sink s).result = .ok .halted) :
    decode m.memory m.pc = .ok .hlt ∧ m.step sink s = m.stepHalted s := by
  cases step_cases sink s hm with
  | hlt hd hstep => exact ⟨hd, hstep⟩
  | undecodable fault hd hstep => rw [hstep] at h; cases h
  | refused src s' hd hs hstep => rw [hstep] at h; cases h
  | ldi dest value hd hstep => rw [hstep] at h; cases h
  | mul dest src hd hstep => rw [hstep] at h; cases h
  | accepted src s' hd hs hstep => rw [hstep] at h; cases h

/-- A fault of a running machine changes nothing of it but the run state. -/
theorem step_of_error (hm : m.runState = .running) {fault : Fault}
    (h : (m.step sink s).result = .error fault) :
    m.step sink s = m.stepFault fault (m.step sink s).sink := by
  cases fault_cases hm h with
  | undecodable _ hd hstep =>
    rw [hstep]
    rfl
  | refused src s' hd hs hstep =>
    rw [hstep]
    rfl

/-- The look-ahead of the run loop looks at one byte. -/
theorem atHalt_iff_get? : m.atHalt = true ↔ m.memory.get? m.pc = some Opcode.hlt.byte := by
  rw [atHalt, beq_iff_eq, Option.bind_eq_some_iff]
  constructor
  · rintro ⟨byte, hbyte, hop⟩
    rw [hbyte, Opcode.ofByte?_eq_some_iff.mp hop]
  · intro h
    exact ⟨Opcode.hlt.byte, h, Opcode.ofByte?_byte .hlt⟩

/-- **The look-ahead of the run loop is exact.** It holds at a running machine if and only if the
next step halts it. -/
theorem atHalt_iff (sink : Sink σ) (s : σ) (hm : m.runState = .running) :
    m.atHalt = true ↔ (m.step sink s).result = .ok .halted := by
  have hdecode : m.atHalt = true ↔ decode m.memory m.pc = .ok .hlt := by
    rw [decode_eq_hlt_iff, atHalt, beq_iff_eq]
  rw [hdecode]
  constructor
  · intro hd
    rw [step_hlt hm hd]
    rfl
  · intro h
    exact (step_of_halted hm h).1

end Machine

end LS8
