import LS8.Proofs.Instruction.Refusal
import LS8.Proofs.Machine.PreciseFault

/-!
# What a fault says about the machine

A machine that has faulted still shows why. The instruction that faulted has changed nothing, so the
program counter, the memory and the registers are those that it found, and each fault that execution
can raise is a statement about them: `Machine.Explains` lists the four kinds.

A fault comes either from the decoder or from the sink. The decoder's faults are explained by the
bytes at the program counter (`refused_of_decode`); what is added here is the bound on the program
counter, which leaves 256 as the only address outside the memory that an instruction can run into.
The sink's refusal shows in a record beside the sink (`Sink.recording`), as the last value that it
was offered. The remaining faults belong to other requests of a host (`Fault.ofRequest`), and
execution raises none of them: the only arithmetic that is ever decoded is multiplication, and it has
a result for all bytes.
-/

namespace LS8

/-- The faults that only other requests of a host are refused with: using the arithmetic unit
directly, writing to memory, loading and restoring. -/
def Fault.ofRequest : Fault → Bool
  | divisionByZero .. => true
  | invalidOperand _ => true
  | unsupportedOperation _ => true
  | programTooLarge .. => true
  | snapshotLayout _ => true
  | _ => false

/-- **Why a machine has faulted**, told by what lies at its program counter and by what its sink was
offered. -/
inductive Machine.Explains (m : Machine) (offers : List (UInt8 × Bool)) : Fault → Prop
  /-- The memory ends in front of the instruction, or inside it. -/
  | pastEnd (near : 254 ≤ m.pc ∧ m.pc ≤ 256)
      (lacking : m.pc = 256 ∨ ∃ opcode : Opcode, m.memory.get? m.pc = some opcode.byte ∧
        256 < m.pc + opcode.instructionLength) :
      Explains m offers (.addressOutOfRange .memory 256)
  /-- An operand should name a register and does not. It is the first such operand. -/
  | misnamed (opcode : Opcode) (byte : UInt8) (fetched : m.memory.get? m.pc = some opcode.byte)
      (first : m.memory.misnamed? m.pc opcode = some byte)
      (range : 8 ≤ byte.toNat ∧ byte.toNat ≤ 255) :
      Explains m offers (.addressOutOfRange .registers byte.toNat)
  /-- The byte at the program counter is no opcode. -/
  | unassigned (byte : UInt8) (fetched : m.memory.get? m.pc = some byte)
      (unassigned : byte ∉ Opcode.all.map Opcode.byte) :
      Explains m offers (.illegalInstruction byte m.pc)
  /-- A print instruction offered its value, and the sink refused it last of all. -/
  | unprinted (src : Register)
      (fetched : m.memory.Holds m.pc [Opcode.prn.byte, UInt8.ofNat src.val])
      (rejected : offers.getLast? = some (m.registers.get src, false)) :
      Explains m offers (.outputFailed m.pc)

namespace Machine

variable {m : Machine} {offers : List (UInt8 × Bool)} {fault : Fault}

/-- A program counter that is named in a fault is that of the machine. -/
theorem Explains.pc?_eq (h : m.Explains offers fault) : ∀ pc ∈ fault.pc?, pc = m.pc := by
  intro pc hpc
  cases h with
  | pastEnd => cases hpc
  | misnamed => cases hpc
  | unassigned byte => exact (Option.some.inj hpc).symm
  | unprinted src => exact (Option.some.inj hpc).symm

/-- What is explained was raised by execution. -/
theorem Explains.not_ofRequest (h : m.Explains offers fault) : fault.ofRequest = false := by
  cases h <;> rfl

/-- What a decoder refuses at a program counter in range explains its fault. -/
theorem explains_of_refused (hpc : m.pc ≤ 256) (h : Refused m.memory m.pc fault) :
    m.Explains offers fault := by
  cases h with
  | unfetched hbeyond =>
    -- the program counter is right behind the last cell, so this is the address that is reported
    have heq : m.pc = 256 := Nat.le_antisymm hpc hbeyond
    have hnear : 254 ≤ m.pc ∧ m.pc ≤ 256 := ⟨by omega, hpc⟩
    rw [heq]
    exact .pastEnd hnear (.inl heq)
  | unassigned byte hfetched hunassigned => exact .unassigned byte hfetched hunassigned
  | misnamed opcode byte hfetched hfirst =>
    obtain ⟨offset, -, hat⟩ := List.exists_of_findSome?_eq_some hfirst
    have hlarge := (Memory.misnamedAt?_eq_some_iff.mp hat).2
    have hbyte : byte.toNat < 256 := byte.toNat_lt
    exact .misnamed opcode byte hfetched hfirst ⟨hlarge, Nat.le_of_lt_succ hbyte⟩
  | cut opcode hfetched _ hbeyond =>
    -- no instruction is longer than three bytes
    have hlength := opcode.instructionLength_le
    exact .pastEnd ⟨by omega, hpc⟩ (.inr ⟨opcode, hfetched, hbeyond⟩)

end Machine

namespace Stage

variable {σ α : Type} {sink : Sink σ} {stop : σ → Bool} {limit : Option Nat} {c : Stage σ}
variable {fault : Fault}

/-- A fault that was raised after `k` retired instructions, and what explains it. `r` is the answer
of the request that reports the fault, and `recorded` the answer of the same request with a record
beside the sink. -/
structure ExplainedFault (sink : Sink σ) (c : Stage σ) (k : Nat) (fault : Fault)
    (r : Response σ α) (recorded : Response (σ × List (UInt8 × Bool)) α) : Prop where
  advances : c.Advances sink k
  faults : ((c.after sink k).step sink).result = .error fault
  /-- The faulting instruction is the one at the program counter, which it left where it was. -/
  pc_eq : r.machine.pc = (c.after sink k).machine.pc
  memory_eq : r.machine.memory = c.machine.memory
  recorded_eq : recorded = r.mapSink fun s => (s, recorded.sink.2)
  explains : r.machine.Explains recorded.sink.2 fault
  pc?_eq : ∀ pc ∈ fault.pc?, pc = r.machine.pc
  not_ofRequest : fault.ofRequest = false

/-- **A step that faults is explained by what it leaves.** -/
theorem explains_of_error (hc : c.machine.runState = .running) (hpc : c.machine.pc ≤ 256)
    (h : (c.step sink).result = .error fault) (earlier : List (UInt8 × Bool)) :
    (c.next sink).machine.Explains (earlier ++ c.offers sink) fault := by
  -- the latch is all that the step has changed, and no explanation looks at it
  rw [machine_next_of_error hc h]
  cases Machine.fault_cases hc h with
  | undecodable _ hd hstep => exact Machine.explains_of_refused hpc (refused_of_decode hd)
  | refused src s' hd hs hstep =>
    have hoffers : c.offers sink = [(c.machine.registers.get src, false)] := by
      simp [offers, hc, hd, hs]
    rw [hoffers]
    exact .unprinted src (holds_encode_of_decode hd) List.getLast?_concat

/-- A request that ends in a faulting step is explained, if it leaves what its steps leave and the
record beside the sink is that of its steps. -/
theorem explainedFault_of_error {k : Nat} (hc : c.machine.runState = .running)
    (hpc : c.machine.pc ≤ 256) (hadv : c.Advances sink k)
    (h : ((c.after sink k).step sink).result = .error fault) {r : Response σ α}
    {recorded : Response (σ × List (UInt8 × Bool)) α}
    (hmachine : r.machine = (c.after sink (k + 1)).machine)
    (hrecorded : recorded = r.mapSink fun s => (s, c.offersOf sink (k + 1))) :
    ExplainedFault sink c k fault r recorded := by
  have hrun := runState_after hc hadv
  -- the last request adds its offer to those of the retired instructions
  have hexplains : r.machine.Explains recorded.sink.2 fault := by
    rw [hmachine, hrecorded, after_succ']
    change (((c.after sink k).next sink).machine).Explains (c.offersOf sink (k + 1)) fault
    rw [offersOf_succ]
    exact explains_of_error hrun (pc_after_le hpc hadv) h (c.offersOf sink k)
  exact {
    advances := hadv
    faults := h
    pc_eq := by rw [hmachine, after_succ', machine_next_of_error hrun h]
    memory_eq := by rw [hmachine, memory_after]
    recorded_eq := by
      rw [hrecorded]
      rfl
    explains := hexplains
    pc?_eq := hexplains.pc?_eq
    not_ofRequest := hexplains.not_ofRequest }

/-- **A run that faults is explained by what it leaves**, behind some number of retired
instructions. -/
theorem exists_explainedFault (hc : c.machine.runState = .running) (hpc : c.machine.pc ≤ 256)
    (h : (c.runLoop sink stop limit).result = .error fault) :
    ∃ k, ExplainedFault sink c k fault (c.runLoop sink stop limit)
      ((c.record []).runLoop sink.recording (fun s => stop s.1) limit) := by
  obtain ⟨k, hcourse⟩ := exists_course_of_error hc h
  rw [hcourse.runLoop_eq hc, hcourse.runLoop_record hc, List.nil_append]
  cases hcourse with
  | faulted _ hadv _ _ _ hend =>
    exact ⟨k, explainedFault_of_error hc hpc hadv hend rfl rfl⟩

/-- **Execution raises only the faults that its state explains.** Whatever the sink is, a step of a
running machine that faults, and a run that faults, whatever its limit and its stop signal, leave a
machine and a record of offers that explain the fault. -/
theorem faults_explained (sink : Sink σ) (c : Stage σ) (hc : c.machine.runState = .running)
    (hpc : c.machine.pc ≤ 256) :
    (∀ fault, (c.step sink).result = .error fault →
      ExplainedFault sink c 0 fault (c.step sink) ((c.record []).step sink.recording)) ∧
    (∀ fault, (c.run sink).result = .error fault →
      ∃ k, ExplainedFault sink c k fault (c.run sink) ((c.record []).run sink.recording)) ∧
    (∀ n fault, (c.runWithLimit sink n).result = .error fault →
      ∃ k, ExplainedFault sink c k fault (c.runWithLimit sink n)
        ((c.record []).runWithLimit sink.recording n)) ∧
    ∀ stop fault, (c.runUntil sink stop).result = .error fault →
      ∃ k, ExplainedFault sink c k fault (c.runUntil sink stop)
        ((c.record []).runUntil sink.recording fun s => stop s.1) := by
  refine ⟨fun fault h => ?_, fun fault h => ?_, fun n fault h => ?_, fun stop fault h => ?_⟩
  -- a step is the last one of a stretch without any instruction
  · refine explainedFault_of_error hc hpc advances_zero h rfl ?_
    rw [step_record, offersOf_succ]
    rfl
  -- the three runs are the run loop under their limits and signals
  · exact exists_explainedFault hc hpc h
  · exact exists_explainedFault hc hpc h
  · exact exists_explainedFault hc hpc h

/-- A machine in the last cells of its memory: a print instruction, and behind it a multiplication
without its second operand. -/
def printsAtEnd : Stage (List UInt8) :=
  ⟨{ Machine.new with
      memory := ⟨(List.replicate 252 (0 : UInt8) ++ [0x47, 0, 0xA2, 3]).toArray, by
        rw [List.size_toArray, List.length_append, List.length_replicate]
        rfl⟩
      pc := 252 }, []⟩

/-- Either instruction faults in its turn: the print because it is refused, the other one because
the memory ends. -/
theorem faults_explained_printsAtEnd :
    printsAtEnd.machine.runState = .running ∧ printsAtEnd.machine.pc ≤ 256 ∧
      (printsAtEnd.step (.bounded (some 0))).result = .error (.outputFailed 252) ∧
      ExplainedFault (.bounded (some 0)) printsAtEnd 0 (.outputFailed 252)
        (printsAtEnd.step (.bounded (some 0)))
        ((printsAtEnd.record []).step (Sink.bounded (some 0)).recording) ∧
      (printsAtEnd.run .collect).result = .error (.addressOutOfRange .memory 256) ∧
      ∃ k, ExplainedFault .collect printsAtEnd k (.addressOutOfRange .memory 256)
        (printsAtEnd.run .collect) ((printsAtEnd.record []).run Sink.collect.recording) := by
  have hpc : printsAtEnd.machine.pc ≤ 256 := by decide
  have hstep : (printsAtEnd.step (.bounded (some 0))).result = .error (.outputFailed 252) := by
    decide +kernel
  have hrun : (printsAtEnd.run .collect).result = .error (.addressOutOfRange .memory 256) := by
    decide +kernel
  exact ⟨rfl, hpc, hstep, (faults_explained (.bounded (some 0)) printsAtEnd rfl hpc).1 _ hstep,
    hrun, (faults_explained .collect printsAtEnd rfl hpc).2.1 _ hrun⟩

end Stage

end LS8
