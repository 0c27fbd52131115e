import LS8.Proofs.Machine.Offers

/-!
# Precise faults

A fault can come from the fetch, from the opcode table, from an operand or from the sink in the
middle of a commit. Wherever it comes from, the instruction that raised it has done nothing: the
machine is the one before the instruction, with the fault latched, and the sink accepted no value of
it (`Stage.preciseStep_of_error`).

A run inherits this from its last request (`Stage.exists_preciseRun`). What it leaves is what the
retired instructions made of the machine, and the sink accepted what they printed.
-/

namespace LS8

variable {σ : Type} {sink : Sink σ} {stop : σ → Bool} {limit : Option Nat} {fault : Fault}

namespace Stage

variable {c : Stage σ}

/-- What a faulting step request leaves. A record beside the sink shows how often the sink was
called. -/
structure PreciseStep (sink : Sink σ) (c : Stage σ) (fault : Fault) : Prop where
  memory_eq : (c.step sink).machine.memory = c.machine.memory
  registers_eq : (c.step sink).machine.registers = c.machine.registers
  pc_eq : (c.step sink).machine.pc = c.machine.pc
  config_eq : (c.step sink).machine.config = c.machine.config
  runState_eq : (c.step sink).machine.runState = .faulted fault
  offers : ∃ refused, refused.length ≤ 1 ∧ accepted refused = [] ∧
    ∀ log, (c.record log).step sink.recording =
      (c.step sink).mapSink fun s => (s, log ++ refused)

/-- What a run leaves that faults after `k` retired instructions. The same run with a record is
`recorded`. -/
structure PreciseRun (sink : Sink σ) (c : Stage σ) (fault : Fault) (k : Nat)
    (r : Response σ RunOutcome) (recorded : Response (σ × List (UInt8 × Bool)) RunOutcome) :
    Prop where
  advances : c.Advances sink k
  faults : ((c.after sink k).step sink).result = .error fault
  machine_eq : r.machine = { (c.after sink k).machine with runState := .faulted fault }
  recorded_eq : recorded = r.mapSink fun s => (s, recorded.sink.2)
  accepted_eq : accepted recorded.sink.2 =
    accepted ((c.record []).after sink.recording k).sink.2

/-- Nothing was accepted by a request that faults. -/
theorem accepted_offers_of_error (hc : c.machine.runState = .running)
    (h : (c.step sink).result = .error fault) : accepted (c.offers sink) = [] := by
  rcases offers_of_error hc h with ⟨hoffers, -⟩ | ⟨value, hoffers, -⟩
  · rw [hoffers]
    rfl
  · rw [hoffers]
    rfl

/-- **A fault leaves everything but the run state as it was.** -/
theorem preciseStep_of_error (hc : c.machine.runState = .running)
    (h : (c.step sink).result = .error fault) : PreciseStep sink c fault := by
  -- all that is said about the machine follows from this one equation
  have hmachine : (c.step sink).machine = { c.machine with runState := .faulted fault } :=
    machine_next_of_error hc h
  exact {
    memory_eq := by rw [hmachine]
    registers_eq := by rw [hmachine]
    pc_eq := by rw [hmachine]
    config_eq := by rw [hmachine]
    runState_eq := by rw [hmachine]
    offers := ⟨c.offers sink, length_offers_le, accepted_offers_of_error hc h,
      fun _ => step_record⟩ }

/-- **A run that faults leaves what its retired instructions made of the machine.** -/
theorem exists_preciseRun (hc : c.machine.runState = .running)
    (h : (c.runLoop sink stop limit).result = .error fault) :
    ∃ k, PreciseRun sink c fault k (c.runLoop sink stop limit)
      ((c.record []).runLoop sink.recording (fun s => stop s.1) limit) := by
  obtain ⟨k, hcourse⟩ := exists_course_of_error hc h
  rw [hcourse.runLoop_eq hc, hcourse.runLoop_record hc, List.nil_append]
  -- the answer is a fault, so the course is the one that ends in a fault
  cases hcourse with
  | faulted _ hadv _ _ _ hend =>
    have hk := runState_after hc hadv
    refine ⟨k, hadv, hend, ?_, rfl, ?_⟩
    · change (c.after sink (k + 1)).machine = _
      rw [after_succ', machine_next_of_error hk hend]
    · -- the last request adds a refused offer, or none
      change accepted (c.offersOf sink (k + 1)) = _
      rw [after_record, offersOf_succ, accepted_append, accepted_offers_of_error hk hend]
      simp [record]

/-- **Faults are precise.** A step of a running machine that faults has changed nothing but the run
state, and the sink accepted nothing. A run that faults, whatever its limit and its stop signal,
leaves what its successful steps left, with the fault latched, and the sink accepted the values of
these steps only. -/
theorem faults_precise (sink : Sink σ) (c : Stage σ) (hc : c.machine.runState = .running) :
    (∀ fault, (c.step sink).result = .error fault → PreciseStep sink c fault) ∧
    (∀ fault, (c.run sink).result = .error fault →
      ∃ k, PreciseRun sink c fault k (c.run sink) ((c.record []).run sink.recording)) ∧
    (∀ n fault, (c.runWithLimit sink n).result = .error fault →
      ∃ k, PreciseRun sink c fault k (c.runWithLimit sink n)
        ((c.record []).runWithLimit sink.recording n)) ∧
    ∀ stop fault, (c.runUntil sink stop).result = .error fault →
      ∃ k, PreciseRun sink c fault k (c.runUntil sink stop)
        ((c.record []).runUntil sink.recording fun s => stop s.1) := by
  refine ⟨fun fault h => ?_, fun fault h => ?_, fun n fault h => ?_, fun stop fault h => ?_⟩
  · exact preciseStep_of_error hc h
  -- the three runs are the run loop under their limits and signals
  · exact exists_preciseRun hc h
  · exact exists_preciseRun hc h
  · exact exists_preciseRun hc h

/-- A machine that prints twice, to a sink with room for one value. -/
def printsTwice : Stage (List UInt8) :=
  ⟨{ Machine.new with memory := .ofProgram [0x47, 0, 0x47, 1, 0x01] }, []⟩

/-- The first print is accepted, and the second one is refused. -/
theorem faults_precise_printsTwice :
    printsTwice.machine.runState = .running ∧
      (printsTwice.run (.bounded (some 1))).result = .error (.outputFailed 2) ∧
      ∃ k, PreciseRun (.bounded (some 1)) printsTwice (.outputFailed 2) k
        (printsTwice.run (.bounded (some 1)))
        ((printsTwice.record []).run (Sink.bounded (some 1)).recording) := by
  have hrun : (printsTwice.run (.bounded (some 1))).result = .error (.outputFailed 2) := by
    decide +kernel
  exact ⟨rfl, hrun, (faults_precise (.bounded (some 1)) printsTwice rfl).2.1 _ hrun⟩

end Stage

end LS8
