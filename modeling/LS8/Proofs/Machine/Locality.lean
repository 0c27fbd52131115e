import LS8.Proofs.Machine.Offers

/-!
# A run depends only on the memory it walks over

`Machine.upon` puts a machine over another memory. A machine looks at three cells at a time: those
of the longest instruction, which are also the ones that a trace frame shows. If they hold the same
in the other memory (`Machine.SeesAlike`), decoding gives the same there (`decode_eq_of_agreeOn`),
and so does the whole step, but for the memory that the machine still has (`Machine.step_upon`).

The program counter never goes back (`Stage.pc_after_mono`) and nothing writes to the memory. So all
that a run looks at lies between the place where it starts and the third cell from the place where
it ends. Over two memories that agree there, the two executions are alike as far as the run goes,
and the run gives the same answer over both of them (`Stage.runLoop_upon`). Its end may be of any
kind: it halts, faults, comes to its limit or is interrupted.
-/

namespace LS8

variable {σ α : Type}

/-! ### Memories that agree in part -/

namespace Memory

/-- Two memories hold the same bytes from one address up to another one. -/
def AgreeOn (a b : Memory) (first last : Nat) : Prop :=
  ∀ address, first ≤ address → address < last → address < 256 → b.get? address = a.get? address

variable {a b : Memory} {first last address : Nat}

/-- Memories that agree have the same cells in the range. -/
theorem AgreeOn.get?_eq (h : a.AgreeOn b first last) (hfirst : first ≤ address)
    (hlast : address < last) : b.get? address = a.get? address := by
  by_cases haddress : address < 256
  · exact h address hfirst hlast haddress
  -- behind the end neither memory has a cell
  · have hle := Nat.le_of_not_lt haddress
    rw [get?_eq_none_iff.mpr hle, get?_eq_none_iff.mpr hle]

/-- They agree on every smaller range. -/
theorem AgreeOn.mono (h : a.AgreeOn b first last) {first' last' : Nat} (hfirst : first ≤ first')
    (hlast : last' ≤ last) : a.AgreeOn b first' last' := by
  intro address hfirst' hlast'
  exact h address (Nat.le_trans hfirst hfirst') (Nat.lt_of_lt_of_le hlast' hlast)

/-- So they are read alike in the range. -/
theorem AgreeOn.read_eq (h : a.AgreeOn b first last) (hfirst : first ≤ address)
    (hlast : address < last) : b.read address = a.read address := by
  unfold read
  rw [h.get?_eq hfirst hlast]

end Memory

/-- **Decoding looks at three cells**, whether it succeeds or not. -/
theorem decode_eq_of_agreeOn {a b : Memory} {pc : Nat} (h : a.AgreeOn b pc (pc + 3)) :
    decode b pc = decode a pc := by
  have hread : ∀ offset < 3, b.read (pc + offset) = a.read (pc + offset) := by
    intro offset hoffset
    exact h.read_eq (Nat.le_add_right pc offset) (Nat.add_lt_add_left hoffset pc)
  have hopcode : b.read pc = a.read pc := hread 0 (by decide)
  unfold decode registerOperand
  rw [hopcode, hread 1 (by decide), hread 2 (by decide)]

/-! ### One step over another memory -/

/-- The machine over another memory. -/
def Machine.upon (m : Machine) (memory : Memory) : Machine :=
  { m with memory }

/-- The stage over another memory. -/
def Stage.upon (c : Stage σ) (memory : Memory) : Stage σ :=
  ⟨c.machine.upon memory, c.sink⟩

/-- The same answer by a machine over another memory. -/
def Response.upon (r : Response σ α) (memory : Memory) : Response σ α :=
  { r with machine := r.machine.upon memory }

namespace Machine

variable {m : Machine} {memory : Memory}

/-- The cells that a machine looks at before and while it executes its next instruction hold the
same in another memory. -/
def SeesAlike (m : Machine) (memory : Memory) : Prop :=
  m.memory.AgreeOn memory m.pc (m.pc + 3)

/-- Two machines that differ at most in their memories. -/
theorem eq_upon {m' : Machine} (hregisters : m'.registers = m.registers) (hpc : m'.pc = m.pc)
    (hstate : m'.runState = m.runState) (hconfig : m'.config = m.config) :
    m' = m.upon m'.memory := by
  unfold upon
  rw [← hregisters, ← hpc, ← hstate, ← hconfig]

/-- The next instruction is the same one. -/
theorem SeesAlike.decode_eq (h : m.SeesAlike memory) :
    decode (m.upon memory).memory (m.upon memory).pc = decode m.memory m.pc :=
  decode_eq_of_agreeOn h

/-- The window that a trace frame shows is the same. -/
theorem SeesAlike.get?_eq (h : m.SeesAlike memory) {offset : Nat} (hoffset : offset < 3) :
    memory.get? (m.pc + offset) = m.memory.get? (m.pc + offset) :=
  Memory.AgreeOn.get?_eq h (Nat.le_add_right m.pc offset) (Nat.add_lt_add_left hoffset m.pc)

theorem SeesAlike.opcode_eq (h : m.SeesAlike memory) :
    (m.upon memory).memory.get? (m.upon memory).pc = m.memory.get? m.pc :=
  h.get?_eq (by decide : 0 < 3)

/-- Whether a halt is next does not depend on what lies elsewhere. -/
theorem atHalt_upon (h : m.SeesAlike memory) : (m.upon memory).atHalt = m.atHalt := by
  unfold atHalt
  rw [h.opcode_eq]

/-- A trace frame shows what the machine sees. -/
theorem trace_upon (h : m.SeesAlike memory) : (m.upon memory).trace = m.trace := by
  have hcells : (fun offset : Fin 3 => memory.get? (m.pc + offset.val)) =
      fun offset : Fin 3 => m.memory.get? (m.pc + offset.val) := by
    ext1 offset
    exact h.get?_eq offset.isLt
  change TraceFrame.mk m.pc (Vector.ofFn fun offset => memory.get? (m.pc + offset.val))
    m.registers = _
  rw [hcells]
  rfl

/-- Nor does the event that opens a cycle. -/
theorem startEvents_upon (h : m.SeesAlike memory) :
    (m.upon memory).startEvents = m.startEvents := by
  unfold startEvents
  rw [h.opcode_eq, trace_upon h]
  rfl

theorem stepFault_upon (h : m.SeesAlike memory) (fault : Fault) (s : σ) :
    (m.upon memory).stepFault fault s = (m.stepFault fault s).upon memory := by
  unfold stepFault
  rw [startEvents_upon h]
  rfl

theorem stepRetired_upon (h : m.SeesAlike memory) (length : Nat) (registers : RegisterFile) (s : σ)
    (event : TraceEvent) : (m.upon memory).stepRetired length registers s event =
      (m.stepRetired length registers s event).upon memory := by
  unfold stepRetired
  rw [startEvents_upon h]
  rfl

theorem stepHalted_upon (h : m.SeesAlike memory) (s : σ) :
    (m.upon memory).stepHalted s = (m.stepHalted s).upon memory := by
  unfold stepHalted
  rw [startEvents_upon h]
  rfl

/-- **A step depends only on the cells that the machine sees.** -/
theorem step_upon (h : m.SeesAlike memory) (sink : Sink σ) (s : σ) :
    (m.upon memory).step sink s = (m.step sink s).upon memory := by
  cases hm : m.runState with
  | halted =>
    have hm' : (m.upon memory).runState = .halted := hm
    simp only [step, hm, hm', Response.upon]
  | faulted fault =>
    have hm' : (m.upon memory).runState = .faulted fault := hm
    simp only [step, hm, hm', Response.upon]
  | running =>
    have hm' : (m.upon memory).runState = .running := hm
    have hdecode := h.decode_eq
    -- the same instruction is decoded, over the same registers
    cases step_cases sink s hm with
    | undecodable fault hd hstep =>
      rw [hstep, step_of_decode_error hm' (hdecode.trans hd), stepFault_upon h]
    | hlt hd hstep => rw [hstep, step_hlt hm' (hdecode.trans hd), stepHalted_upon h]
    | ldi dest value hd hstep =>
      rw [hstep, step_ldi hm' (hdecode.trans hd), stepRetired_upon h]
      rfl
    | mul dest src hd hstep =>
      rw [hstep, step_mul hm' (hdecode.trans hd), stepRetired_upon h]
      rfl
    | accepted src s' hd hs hstep =>
      rw [hstep, step_prn_accepted hm' (hdecode.trans hd) hs, stepRetired_upon h]
      rfl
    | refused src s' hd hs hstep =>
      rw [hstep, step_prn_refused hm' (hdecode.trans hd) hs, stepFault_upon h]
      rfl

end Machine

namespace Stage

variable {sink : Sink σ} {stop : σ → Bool} {limit : Option Nat} {c : Stage σ} {memory : Memory}
variable {n : Nat}

/-- One request goes on alike. -/
theorem next_upon (h : c.machine.SeesAlike memory) :
    (c.upon memory).next sink = (c.next sink).upon memory := by
  have hstep : (c.upon memory).step sink = (c.step sink).upon memory := Machine.step_upon h sink _
  unfold next
  rw [hstep]
  rfl

/-! ### The walk -/

/-- No request moves the program counter back. -/
theorem pc_le_pc_next (sink : Sink σ) (c : Stage σ) :
    c.machine.pc ≤ (c.next sink).machine.pc := by
  by_cases hr : c.Retires sink
  · obtain ⟨length, hadv⟩ := hr.advance
    rw [hadv.pc_eq]
    exact Nat.le_add_right _ _
  by_cases hm : c.machine.runState = .running
  · rw [pc_next_of_stuck hm hr]
  · rw [next_of_terminal hm]

/-- **The walk never goes back.** -/
theorem pc_after_mono (sink : Sink σ) (c : Stage σ) :
    Monotone fun n => (c.after sink n).machine.pc := by
  refine monotone_nat_of_le_succ fun n => ?_
  rw [after_succ']
  exact pc_le_pc_next sink _

/-- What is seen on the way lies between the start and the third cell from the end. -/
theorem seesAlike_after
    (h : c.machine.memory.AgreeOn memory c.machine.pc ((c.after sink n).machine.pc + 3))
    {i : Nat} (hi : i ≤ n) : (c.after sink i).machine.SeesAlike memory := by
  have hstart : c.machine.pc ≤ (c.after sink i).machine.pc := pc_after_mono sink c (Nat.zero_le i)
  have hend : (c.after sink i).machine.pc ≤ (c.after sink n).machine.pc := pc_after_mono sink c hi
  unfold Machine.SeesAlike
  rw [memory_after]
  exact h.mono hstart (Nat.add_le_add_right hend 3)

/-- **A stretch goes alike over two memories** that agree on what it walks over. -/
theorem after_upon
    (h : c.machine.memory.AgreeOn memory c.machine.pc ((c.after sink n).machine.pc + 3))
    {i : Nat} (hi : i ≤ n) : (c.upon memory).after sink i = (c.after sink i).upon memory := by
  induction i with
  | zero => rfl
  | succ i ih =>
    have hle := Nat.le_of_succ_le hi
    rw [after_succ', after_succ', ih hle, next_upon (seesAlike_after h hle)]

/-- So each of its requests has the same answer. -/
theorem step_after_upon
    (h : c.machine.memory.AgreeOn memory c.machine.pc ((c.after sink n).machine.pc + 3))
    {i : Nat} (hi : i ≤ n) : ((c.upon memory).after sink i).step sink =
      ((c.after sink i).step sink).upon memory := by
  rw [after_upon h hi]
  exact Machine.step_upon (seesAlike_after h hi) sink _

/-- And the events are the same. -/
theorem events_upon
    (h : c.machine.memory.AgreeOn memory c.machine.pc ((c.after sink n).machine.pc + 3))
    {i : Nat} (hi : i ≤ n) : (c.upon memory).events sink i = c.events sink i := by
  induction i with
  | zero => rfl
  | succ i ih =>
    have hle := Nat.le_of_succ_le hi
    -- the last step is split off, because the memories agree along the way from the start
    rw [← events_add, ← events_add, ih hle, events_succ, events_succ, step_after_upon h hle]
    rfl

/-- The run loop cannot tell the two executions apart as far as the memories agree. -/
theorem alike_upon
    (h : c.machine.memory.AgreeOn memory c.machine.pc ((c.after sink n).machine.pc + 3)) :
    Alike sink stop c sink stop (c.upon memory) n where
  -- each step looks at three cells from its program counter on, all of which agree
  result_eq := by
    intro i hi
    rw [step_after_upon h (Nat.le_of_lt hi)]
    rfl
  atHalt_eq := by
    intro i hi
    rw [after_upon h hi]
    exact Machine.atHalt_upon (seesAlike_after h hi)
  stop_eq := by
    intro i hi
    rw [after_upon h hi]
    rfl

/-! ### Runs -/

/-- **A run answers the same over a memory that agrees on its walk.** -/
theorem runLoop_upon (hc : c.machine.runState = .running)
    (h : c.machine.memory.AgreeOn memory c.machine.pc
      ((c.runLoop sink stop limit).machine.pc + 3)) :
    (c.upon memory).runLoop sink stop limit = (c.runLoop sink stop limit).upon memory := by
  have hc' : (c.upon memory).machine.runState = .running := hc
  obtain ⟨n, result, hcourse⟩ := exists_course sink stop limit hc
  rw [hcourse.runLoop_eq hc] at h ⊢
  rw [(hcourse.transfer (alike_upon h)).runLoop_eq hc', answer, after_upon h le_rfl,
    events_upon h le_rfl]
  rfl

/-- Two runs that cannot be told apart, with what their sinks were offered: what they report, what
they do to the sink, what listeners hear, and what they leave of the machine. -/
structure SameRun (r r' : Response σ RunOutcome)
    (recorded recorded' : Response (σ × List (UInt8 × Bool)) RunOutcome) : Prop where
  result_eq : r'.result = r.result
  sink_eq : r'.sink = r.sink
  events_eq : r'.events = r.events
  registers_eq : r'.machine.registers = r.machine.registers
  pc_eq : r'.machine.pc = r.machine.pc
  runState_eq : r'.machine.runState = r.machine.runState
  /-- The sinks were offered the same values in the same order, and gave the same answers. -/
  offers_eq : ∃ offers, recorded = r.mapSink (·, offers) ∧ recorded' = r'.mapSink (·, offers)

/-- Two runs over two memories: they change neither of them, and cannot be told apart if the two
agree from where the runs start up to the third cell from where the first one ends. -/
structure DependsOnWalk (m m' : Machine) (r r' : Response σ RunOutcome)
    (recorded recorded' : Response (σ × List (UInt8 × Bool)) RunOutcome) : Prop where
  memory_eq : r.machine.memory = m.memory
  memory_eq' : r'.machine.memory = m'.memory
  same : m.memory.AgreeOn m'.memory m.pc (r.machine.pc + 3) → SameRun r r' recorded recorded'

/-- The record shows the same over the other memory, because recording is an execution, too. -/
theorem sameRun_upon (hc : c.machine.runState = .running)
    (h : c.machine.memory.AgreeOn memory c.machine.pc
      ((c.runLoop sink stop limit).machine.pc + 3)) :
    SameRun (c.runLoop sink stop limit) ((c.upon memory).runLoop sink stop limit)
      ((c.record []).runLoop sink.recording (fun state => stop state.1) limit)
      (((c.upon memory).record []).runLoop sink.recording (fun state => stop state.1) limit) := by
  obtain ⟨n, result, -, hrun, hrecord⟩ := exists_answer_record sink stop limit hc []
  rw [← hrun] at hrecord
  -- the recording run ends at the same program counter, so the memories agree far enough for it
  have hrecorded : ((c.record []).upon memory).runLoop sink.recording (fun state => stop state.1)
      limit = ((c.record []).runLoop sink.recording (fun state => stop state.1) limit).upon
        memory := by
    refine runLoop_upon hc ?_
    rw [hrecord]
    exact h
  have hupon := runLoop_upon hc h
  rw [hupon]
  refine ⟨rfl, rfl, rfl, rfl, rfl, rfl, [] ++ c.offersOf sink n, hrecord, ?_⟩
  exact hrecorded.trans (congrArg (Response.upon · memory) hrecord)

/-- **A run depends only on the cells that it walks over.** -/
theorem dependsOnWalk_upon (hc : c.machine.runState = .running) (sink : Sink σ) (stop : σ → Bool)
    (limit : Option Nat) (memory : Memory) :
    DependsOnWalk c.machine (c.upon memory).machine (c.runLoop sink stop limit)
      ((c.upon memory).runLoop sink stop limit)
      ((c.record []).runLoop sink.recording (fun state => stop state.1) limit)
      (((c.upon memory).record []).runLoop sink.recording (fun state => stop state.1) limit) where
  memory_eq := (kept_runLoop sink stop limit c).1
  memory_eq' := (kept_runLoop sink stop limit (c.upon memory)).1
  same := sameRun_upon hc

/-- **A run depends only on the memory it walks over.** Two running machines that differ at most in
their memories are run in the same way, with the same sink. -/
theorem run_depends_on_walk (sink : Sink σ) {m m' : Machine} (hm : m.runState = .running)
    (hm' : m'.runState = .running) (hpc : m'.pc = m.pc) (hregisters : m'.registers = m.registers)
    (hconfig : m'.config = m.config) (s : σ) :
    DependsOnWalk m m' (m.run sink s) (m'.run sink s)
      (m.run sink.recording (s, [])) (m'.run sink.recording (s, [])) ∧
    (∀ n, DependsOnWalk m m' (m.runWithLimit sink n s) (m'.runWithLimit sink n s)
      (m.runWithLimit sink.recording n (s, [])) (m'.runWithLimit sink.recording n (s, []))) ∧
    ∀ stop : σ → Bool, DependsOnWalk m m' (m.runUntil sink stop s) (m'.runUntil sink stop s)
      (m.runUntil sink.recording (fun state => stop state.1) (s, []))
      (m'.runUntil sink.recording (fun state => stop state.1) (s, [])) := by
  have heq : m' = m.upon m'.memory := Machine.eq_upon hregisters hpc (hm'.trans hm.symm) hconfig
  -- the second machine is the first one over another memory, so the limits are the same
  generalize m'.memory = memory at heq
  subst heq
  have hwalk := fun stop limit =>
    dependsOnWalk_upon (c := (⟨m, s⟩ : Stage σ)) hm sink stop limit memory
  exact ⟨hwalk (fun _ => false) m.config.stepLimit,
    fun n => hwalk (fun _ => false) (some n), fun stop => hwalk stop m.config.stepLimit⟩

/-- A tracing machine with a program that prints a register and halts, and some byte behind it. -/
def printsBefore (byte : UInt8) : Machine where
  memory := ⟨([0x82, 1, 9, 0x47, 1, 0x01, 0, 0] ++ List.replicate 248 byte).toArray, by
    rw [List.size_toArray, List.length_append, List.length_replicate]
    rfl⟩
  config := { tracing := true }

/-- The two machines differ in a cell right behind the window of the last instruction. -/
theorem run_depends_on_walk_printsBefore :
    (printsBefore 0).runState = .running ∧ (printsBefore 0xff).runState = .running ∧
      (printsBefore 0xff).pc = (printsBefore 0).pc ∧
      (printsBefore 0xff).registers = (printsBefore 0).registers ∧
      (printsBefore 0xff).config = (printsBefore 0).config ∧
      (printsBefore 0).memory.get? 8 ≠ (printsBefore 0xff).memory.get? 8 ∧
      (printsBefore 0).memory.AgreeOn (printsBefore 0xff).memory 0
        (((printsBefore 0).run .collect []).machine.pc + 3) ∧
      ((printsBefore 0xff).run .collect []).result = .ok ⟨2, .halted⟩ ∧
      ((printsBefore 0xff).run .collect []).sink = [9] ∧
      ((printsBefore 0xff).run .collect []).machine.memory = (printsBefore 0xff).memory := by
  have hdiffer : (printsBefore 0).memory.get? 8 ≠ (printsBefore 0xff).memory.get? 8 := by
    decide +kernel
  have hresult : ((printsBefore 0).run .collect []).result = .ok ⟨2, .halted⟩ := by
    decide +kernel
  have hsink : ((printsBefore 0).run .collect []).sink = [9] := by
    decide +kernel
  have hend : ((printsBefore 0).run .collect []).machine.pc = 5 := by
    decide +kernel
  have hcells : ∀ address < 8,
      (printsBefore 0xff).memory.get? address = (printsBefore 0).memory.get? address := by
    decide +kernel
  have hagree : (printsBefore 0).memory.AgreeOn (printsBefore 0xff).memory 0
      (((printsBefore 0).run .collect []).machine.pc + 3) := by
    intro address _ haddress _
    rw [hend] at haddress
    exact hcells address haddress
  have hrunning : ∀ byte, (printsBefore byte).runState = .running := fun _ => rfl
  -- the run over the other memory follows from the theorem and is never computed
  have hwalk := (run_depends_on_walk .collect (hrunning 0) (hrunning 0xff) rfl rfl rfl []).1
  have hsame := hwalk.same hagree
  exact ⟨hrunning 0, hrunning 0xff, rfl, rfl, rfl, hdiffer, hagree, hsame.result_eq.trans hresult,
    hsame.sink_eq.trans hsink, hwalk.memory_eq'⟩

end Stage

end LS8
