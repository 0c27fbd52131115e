import Mathlib.Data.List.Basic
import LS8.Proofs.Machine.Offers

/-!
# The event log of a run

A machine that traces reports its run as one list of events. The list is built in several places,
between calls of the sink and ways to fault; this module says what it amounts to. Every cycle of a
run reports the same thing: the instruction that starts (`Stage.opening`), unless the program counter
is past the end of memory, and then exactly one event that says what became of it
(`Stage.closing`). The log is these reports, one cycle after another (`Stage.log_faithful`).

Whoever only has the log can therefore follow the run. The invariant is the register file:
`replay` applies the writes of a log, and after each cycle it arrives at the registers of the
machine (`Stage.replay_log`). The printed values, the order of the addresses and the place of the
last event are read off the closing events in the same way.
-/

namespace LS8

/-! ### Reading a log -/

namespace TraceEvent

def output? : TraceEvent → Option UInt8
  | output value => some value
  | _ => none

def startPc? : TraceEvent → Option Nat
  | instructionStart pc _ _ => some pc
  | _ => none

/-- Whether an event reports that the machine stopped. -/
def isFinal : TraceEvent → Bool
  | halted _ => true
  | faultRaised _ _ => true
  | _ => false

/-- The registers after an event. -/
def applyTo (registers : RegisterFile) : TraceEvent → RegisterFile
  | registerWrite r value => registers.set r value
  | _ => registers

end TraceEvent

/-- The registers after the events of a log. -/
def replay (registers : RegisterFile) (events : List TraceEvent) : RegisterFile :=
  events.foldl TraceEvent.applyTo registers

theorem replay_append (registers : RegisterFile) (a b : List TraceEvent) :
    replay registers (a ++ b) = replay (replay registers a) b :=
  List.foldl_append

/-- Every instruction start shows the registers that the events before it lead to. -/
def StartsReplayed (registers : RegisterFile) : List TraceEvent → Prop
  | [] => True
  | event :: events =>
    (∀ pc opcode frame, event = .instructionStart pc opcode frame → frame.registers = registers) ∧
      StartsReplayed (event.applyTo registers) events

/-- A log may be replayed in two parts, the second one from where the first one leaves the
registers. -/
theorem StartsReplayed.append {registers : RegisterFile} {a b : List TraceEvent}
    (ha : StartsReplayed registers a) (hb : StartsReplayed (replay registers a) b) :
    StartsReplayed registers (a ++ b) := by
  induction a generalizing registers with
  | nil => exact hb
  | cons event a ih => exact ⟨ha.1, ih ha.2 hb⟩

/-- So the frame of any start shows what was written in front of it. -/
theorem StartsReplayed.registers_eq {registers : RegisterFile} {before later : List TraceEvent}
    {pc : Nat} {opcode : UInt8} {frame : TraceFrame}
    (h : StartsReplayed registers (before ++ .instructionStart pc opcode frame :: later)) :
    frame.registers = replay registers before := by
  induction before generalizing registers with
  | nil => exact h.1 pc opcode frame rfl
  | cons event before ih => exact ih h.2

namespace Stage

variable {σ : Type} {sink : Sink σ} {c : Stage σ}

/-! ### The report of one cycle -/

/-- How a cycle starts: with the address, the byte there and the machine as it is. Past the end of
memory there is no byte, and no event. -/
def opening (c : Stage σ) : List TraceEvent :=
  if h : c.machine.pc < 256 then
    [.instructionStart c.machine.pc c.machine.memory.cells[c.machine.pc] c.machine.trace]
  else []

/-- How a cycle ends: with the register that was written, the value that the sink accepted, the halt
instruction or a fault. -/
def closing (sink : Sink σ) (c : Stage σ) : TraceEvent :=
  match decode c.machine.memory c.machine.pc with
  | .error fault => .faultRaised fault c.machine.pc
  | .ok .hlt => .halted c.machine.pc
  | .ok (.ldi dest value) => .registerWrite dest value
  | .ok (.prn src) =>
    if (sink.emit c.sink (c.machine.registers.get src)).1 then
      .output (c.machine.registers.get src)
    else .faultRaised (.outputFailed c.machine.pc) c.machine.pc
  | .ok (.alu op dest src) =>
    match op.compute (c.machine.registers.get dest) (c.machine.registers.get src) with
    | some value => .registerWrite dest value
    | none => .faultRaised (.divisionByZero dest src) c.machine.pc

def report (sink : Sink σ) (c : Stage σ) : List TraceEvent :=
  c.opening ++ [c.closing sink]

/-- A cycle opens with its start, or with nothing where no byte can be fetched. -/
theorem opening_eq_startEvents : c.opening = c.machine.startEvents := by
  unfold opening Machine.startEvents
  split
  · next h => rw [Memory.get?_of_lt h]
  · next h => rw [Memory.get?_eq_none_iff.mpr (Nat.le_of_not_lt h)]

/-- The latter happens right behind the last cell and nowhere else. -/
theorem opening_eq_nil_iff (hpc : c.machine.pc ≤ 256) : c.opening = [] ↔ c.machine.pc = 256 := by
  unfold opening
  split
  · next h => simp [Nat.ne_of_lt h]
  · next h => simp [Nat.le_antisymm hpc (Nat.le_of_not_lt h)]

/-- A start ends nothing. -/
theorem not_isFinal_of_mem_opening : ∀ event ∈ c.opening, event.isFinal = false := by
  unfold opening
  split
  · intro event hevent
    rw [List.mem_singleton.mp hevent]
    rfl
  · intro event hevent
    cases hevent

/-- What the closing event of a cycle has to do with the step that is made. -/
structure ClosedBy (sink : Sink σ) (c : Stage σ) (event : TraceEvent) : Prop where
  events_eq : (c.step sink).events = c.machine.traced (c.machine.startEvents ++ [event])
  registers_eq : (c.next sink).machine.registers = event.applyTo c.machine.registers
  offers_eq : accepted (c.offers sink) = event.output?.toList
  startPc_eq : event.startPc? = none
  retires : c.Retires sink → event.isFinal = false
  halts : (c.step sink).result = .ok .halted → event = .halted c.machine.pc
  faults : ∀ fault, (c.step sink).result = .error fault → event = .faultRaised fault c.machine.pc

/-- A cycle that faults closes with its fault, and nothing was accepted. -/
theorem closedBy_of_stepFault {fault : Fault} {s : σ}
    (hstep : c.step sink = c.machine.stepFault fault s) (hoffers : accepted (c.offers sink) = []) :
    ClosedBy sink c (.faultRaised fault c.machine.pc) where
  events_eq := by rw [hstep]; rfl
  registers_eq := by rw [next, hstep]; rfl
  offers_eq := hoffers
  startPc_eq := rfl
  retires h := absurd h (stuck_of_error (by rw [hstep]; rfl))
  halts h := by rw [hstep] at h; cases h
  faults f h := by rw [hstep] at h; cases h; rfl

/-- A cycle that halts closes with the halt. -/
theorem closedBy_of_stepHalted {s : σ} (hstep : c.step sink = c.machine.stepHalted s)
    (hoffers : accepted (c.offers sink) = []) : ClosedBy sink c (.halted c.machine.pc) where
  events_eq := by rw [hstep]; rfl
  registers_eq := by rw [next, hstep]; rfl
  offers_eq := hoffers
  startPc_eq := rfl
  retires h := absurd h (stuck_of_halted (by rw [hstep]; rfl))
  halts _ := rfl
  faults f h := by rw [hstep] at h; cases h

/-- A retired instruction is closed by the event that it reports, if this event accounts for the
registers and for what was printed. -/
theorem closedBy_of_stepRetired {length : Nat} {registers : RegisterFile} {s : σ}
    {event : TraceEvent} (hstep : c.step sink = c.machine.stepRetired length registers s event)
    (hregisters : registers = event.applyTo c.machine.registers)
    (hoffers : accepted (c.offers sink) = event.output?.toList) (hstart : event.startPc? = none)
    (hfinal : event.isFinal = false) : ClosedBy sink c event where
  events_eq := by rw [hstep]; rfl
  registers_eq := by rw [next, hstep]; exact hregisters
  offers_eq := hoffers
  startPc_eq := hstart
  retires _ := hfinal
  halts h := by rw [hstep] at h; cases h
  faults f h := by rw [hstep] at h; cases h

/-- **Every cycle is closed by its closing event.** The cases are those of the step, and in each of
them the event is the one that the step reports last. -/
theorem closedBy_closing (sink : Sink σ) (hc : c.machine.runState = .running) :
    ClosedBy sink c (c.closing sink) := by
  unfold closing
  -- in each case the decoded instruction selects the event, and the step is known
  cases Machine.step_cases sink c.sink hc with
  | undecodable fault hd hstep =>
    have hoffers : c.offers sink = [] := by simp [offers, hc, hd]
    rw [hd]
    exact closedBy_of_stepFault hstep (by rw [hoffers]; rfl)
  | hlt hd hstep =>
    have hoffers : c.offers sink = [] := by simp [offers, hc, hd]
    rw [hd]
    exact closedBy_of_stepHalted hstep (by rw [hoffers]; rfl)
  | ldi dest value hd hstep =>
    have hoffers : c.offers sink = [] := by simp [offers, hc, hd]
    rw [hd]
    exact closedBy_of_stepRetired hstep rfl (by rw [hoffers]; rfl) rfl rfl
  | mul dest src hd hstep =>
    have hoffers : c.offers sink = [] := by simp [offers, hc, hd]
    rw [hd]
    exact closedBy_of_stepRetired hstep rfl (by rw [hoffers]; rfl) rfl rfl
  | accepted src s' hd hs hstep =>
    have hoffers : c.offers sink = [(c.machine.registers.get src, true)] := by
      simp [offers, hc, hd, hs]
    rw [hd]
    simp only [hs, if_true]
    exact closedBy_of_stepRetired hstep rfl (by rw [hoffers]; rfl) rfl rfl
  | refused src s' hd hs hstep =>
    have hoffers : c.offers sink = [(c.machine.registers.get src, false)] := by
      simp [offers, hc, hd, hs]
    rw [hd]
    simp only [hs, Bool.false_eq_true, if_false]
    exact closedBy_of_stepFault hstep (by rw [hoffers]; rfl)

/-! ### What a report says about its cycle -/

/-- **A traced step reports how its cycle opens and closes.** -/
theorem events_step (hc : c.machine.runState = .running) (htr : c.machine.config.tracing = true) :
    (c.step sink).events = c.report sink := by
  rw [(closedBy_closing sink hc).events_eq, Machine.traced_of_tracing htr, report,
    opening_eq_startEvents]

/-- Replaying the report of a step gives the registers behind it. -/
theorem replay_report (hc : c.machine.runState = .running) :
    replay c.machine.registers (c.report sink) = (c.next sink).machine.registers := by
  rw [(closedBy_closing sink hc).registers_eq, report, opening]
  split <;> rfl

/-- The start of a cycle shows the registers in front of it. -/
theorem startsReplayed_report (hc : c.machine.runState = .running) :
    StartsReplayed c.machine.registers (c.report sink) := by
  -- only the opening event shows registers
  have hclosing : ∀ pc opcode frame, c.closing sink ≠ .instructionStart pc opcode frame := by
    intro pc opcode frame heq
    have hstart := (closedBy_closing sink hc).startPc_eq
    rw [heq] at hstart
    cases hstart
  rw [report, opening]
  split
  · refine ⟨?_, fun pc opcode frame heq => absurd heq (hclosing pc opcode frame), trivial⟩
    -- the frame is taken of the machine before the cycle, whose registers start the replay
    intro pc opcode frame heq
    cases heq
    rfl
  · exact ⟨fun pc opcode frame heq => absurd heq (hclosing pc opcode frame), trivial⟩

theorem filterMap_report {α : Type} (f : TraceEvent → Option α) :
    (c.report sink).filterMap f = c.opening.filterMap f ++ (f (c.closing sink)).toList := by
  rw [report, List.filterMap_append]
  cases h : f (c.closing sink) with
  | none => simp [h]
  | some a => simp [h]

/-- The outputs of a report are the accepted values. -/
theorem output?_report (hc : c.machine.runState = .running) :
    (c.report sink).filterMap TraceEvent.output? = accepted (c.offers sink) := by
  have hopening : c.opening.filterMap TraceEvent.output? = [] := by
    unfold opening
    split <;> rfl
  rw [filterMap_report, hopening, List.nil_append, (closedBy_closing sink hc).offers_eq]

/-- The start of a report is at the program counter. -/
theorem startPc?_report (hc : c.machine.runState = .running) :
    (c.report sink).filterMap TraceEvent.startPc? =
      if c.machine.pc < 256 then [c.machine.pc] else [] := by
  rw [filterMap_report, (closedBy_closing sink hc).startPc_eq, opening]
  split <;> rfl

/-- A retired instruction reports neither a halt nor a fault. -/
theorem not_isFinal_of_mem_report (h : c.Retires sink) :
    ∀ event ∈ c.report sink, event.isFinal = false := by
  intro event hevent
  rcases List.mem_append.mp hevent with hopening | hclosing
  · exact not_isFinal_of_mem_opening event hopening
  · rw [List.mem_singleton.mp hclosing]
    exact (closedBy_closing sink h.runState_eq).retires h

/-! ### The log of several cycles -/

/-- The reports of the first `n` cycles, in order. -/
def log (sink : Sink σ) (c : Stage σ) (n : Nat) : List TraceEvent :=
  (c.path sink n).flatMap (report sink)

variable {n : Nat}

/-- A log grows by the report of its last request. -/
theorem log_succ : c.log sink (n + 1) = c.log sink n ++ (c.after sink n).report sink := by
  rw [log, log, path_succ', List.flatMap_append, List.flatMap_singleton]

/-- **The events of a traced stretch are its log.** -/
theorem events_eq_log (htr : c.machine.config.tracing = true)
    (hrun : c.Runs sink n) :
    c.events sink n = c.log sink n := by
  refine List.flatMap_congr fun d hd => ?_
  obtain ⟨i, hi, rfl⟩ := mem_path.mp hd
  refine events_step (hrun i hi) ?_
  rw [config_after]
  exact htr

/-- **Replaying a log follows the registers.** After each report the replay has arrived at the
registers that the cycle left. -/
theorem replay_log (hrun : c.Runs sink n) :
    replay c.machine.registers (c.log sink n) = (c.after sink n).machine.registers := by
  -- by induction on the requests: the log grows by one report at its end
  induction n with
  | zero => rfl
  | succ n ih =>
    have hearlier := ih hrun.of_succ
    calc replay c.machine.registers (c.log sink (n + 1))
        = replay (replay c.machine.registers (c.log sink n)) ((c.after sink n).report sink) := by
          rw [log_succ, replay_append]
      _ = replay (c.after sink n).machine.registers ((c.after sink n).report sink) := by
          rw [hearlier]
      _ = ((c.after sink n).next sink).machine.registers :=
          replay_report (hrun n (Nat.lt_succ_self n))
      _ = (c.after sink (n + 1)).machine.registers := by rw [after_succ']

/-- Each start in a log shows the registers as they are replayed up to there. -/
theorem startsReplayed_log (hrun : c.Runs sink n) :
    StartsReplayed c.machine.registers (c.log sink n) := by
  induction n with
  | zero => trivial
  | succ n ih =>
    rw [log_succ]
    refine (ih hrun.of_succ).append ?_
    -- the replay has come to the registers with which the next report begins
    rw [replay_log hrun.of_succ]
    exact startsReplayed_report (hrun n (Nat.lt_succ_self n))

/-- The outputs of a log are the accepted values, in order. -/
theorem output?_log (hrun : c.Runs sink n) :
    (c.log sink n).filterMap TraceEvent.output? = accepted (c.offersOf sink n) := by
  induction n with
  | zero => rfl
  | succ n ih =>
    have hearlier := ih hrun.of_succ
    calc (c.log sink (n + 1)).filterMap TraceEvent.output?
        = (c.log sink n).filterMap TraceEvent.output? ++
            ((c.after sink n).report sink).filterMap TraceEvent.output? := by
          rw [log_succ, List.filterMap_append]
      _ = accepted (c.offersOf sink n) ++ accepted ((c.after sink n).offers sink) := by
          rw [hearlier, output?_report (hrun n (Nat.lt_succ_self n))]
      _ = accepted (c.offersOf sink (n + 1)) := by rw [← accepted_append, offersOf_succ]

/-- The starts of a log are at the program counters along the stretch. -/
theorem startPc?_log (hrun : c.Runs sink n) :
    (c.log sink n).filterMap TraceEvent.startPc? =
      ((c.path sink n).map (·.machine.pc)).filter (· < 256) := by
  induction n with
  | zero => rfl
  | succ n ih =>
    have hearlier := ih hrun.of_succ
    rw [log_succ, List.filterMap_append, hearlier, startPc?_report (hrun n (Nat.lt_succ_self n)),
      path_succ', List.map_append, List.filter_append]
    -- a cycle that starts behind the last cell reports no start
    by_cases hpc : (c.after sink n).machine.pc < 256
    · simp [hpc]
    · simp [hpc]

/-- Each cycle starts behind the one before it, because that one retired an instruction. -/
theorem pairwise_pc_path (h : c.Advances sink n) :
    ((c.path sink (n + 1)).map (·.machine.pc)).Pairwise (· < ·) := by
  induction n generalizing c with
  | zero => exact List.pairwise_singleton _ _
  | succ n ih =>
    obtain ⟨-, hnext⟩ := advances_succ.mp h
    rw [path_succ, List.map_cons, List.pairwise_cons]
    -- every later stage is one or more instructions behind `c`
    refine ⟨?_, ih hnext⟩
    intro pc hpc
    obtain ⟨d, hd, rfl⟩ := List.mem_map.mp hpc
    obtain ⟨i, hi, rfl⟩ := mem_path.mp hd
    have hlower := (pc_after_bounds (h.mono (Nat.succ_le_of_lt hi))).1
    rw [after_succ] at hlower
    omega

/-- Nothing in a stretch of retired instructions is final. -/
theorem not_isFinal_of_mem_log (h : c.Advances sink n) :
    ∀ event ∈ c.log sink n, event.isFinal = false := by
  intro event hevent
  obtain ⟨d, hd, hmem⟩ := List.mem_flatMap.mp hevent
  obtain ⟨i, hi, rfl⟩ := mem_path.mp hd
  exact not_isFinal_of_mem_report (h i hi) event hmem

/-- Only the last event of a log can say that the machine stopped. -/
theorem not_isFinal_of_mem_dropLast_log (h : c.Advances sink n) :
    ∀ event ∈ (c.log sink (n + 1)).dropLast, event.isFinal = false := by
  intro event hevent
  -- what is dropped is the closing event of the last cycle
  rw [log_succ, report, ← List.append_assoc, List.dropLast_concat] at hevent
  rcases List.mem_append.mp hevent with hmem | hopening
  · exact not_isFinal_of_mem_log h event hmem
  · exact not_isFinal_of_mem_opening event hopening

/-- A log ends with the event that closes its last cycle. -/
theorem getLast?_log : (c.log sink (n + 1)).getLast? = some ((c.after sink n).closing sink) := by
  rw [log_succ, report, ← List.append_assoc, List.getLast?_concat]

/-! ### The log of a run -/

/-- How a run of `n` cycles ends, and what its log says last. At the step limit the `n` cycles have
all retired an instruction; otherwise the last one halted the machine or faulted. -/
inductive LogEnding (sink : Sink σ) (c : Stage σ) (n : Nat) (r : Response σ RunOutcome) : Prop
  | stepLimit (advances : c.Advances sink n) (result : r.result = .ok ⟨n, .stepLimit⟩)
      (last : ∀ event ∈ r.events, event.isFinal = false)
  | halted (k : Nat) (advances : c.Advances sink k) (cycles : n = k + 1)
      (result : r.result = .ok ⟨k, .halted⟩)
      (last : r.events.getLast? = some (.halted r.machine.pc))
  | faulted (k : Nat) (advances : c.Advances sink k) (cycles : n = k + 1) (fault : Fault)
      (result : r.result = .error fault)
      (last : r.events.getLast? = some (.faultRaised fault r.machine.pc))

/-- A run of `n` cycles and its log. -/
structure FaithfulLog (sink : Sink σ) (c : Stage σ) (n : Nat) : Prop where
  runs : c.Runs sink n
  retires : ∀ i, i + 1 < n → (c.after sink i).Retires sink
  machine_eq : (c.run sink).machine = (c.after sink n).machine
  sink_eq : (c.run sink).sink = (c.after sink n).sink
  events_eq : (c.run sink).events = (c.path sink n).flatMap (report sink)
  opening_eq_nil_iff : ∀ i < n,
    (c.after sink i).opening = [] ↔ (c.after sink i).machine.pc = 256
  /-- The output events are the values that the sink accepted, as a record beside it shows. -/
  outputs_eq : ∃ offers,
    (c.record []).run sink.recording = (c.run sink).mapSink (fun s => (s, offers)) ∧
      (c.run sink).events.filterMap TraceEvent.output? = accepted offers
  replay_eq : replay c.machine.registers (c.run sink).events = (c.run sink).machine.registers
  /-- Replaying what comes before an instruction start leads to the registers that it shows. -/
  registers_eq : ∀ before pc opcode frame later,
    (c.run sink).events = before ++ .instructionStart pc opcode frame :: later →
      frame.registers = replay c.machine.registers before
  starts_increase : ((c.run sink).events.filterMap TraceEvent.startPc?).Pairwise (· < ·)
  final_last : ∀ event ∈ (c.run sink).events.dropLast, event.isFinal = false
  ending : LogEnding sink c n (c.run sink)

/-- A run makes a number of cycles, of which all but the last one retire an instruction. -/
theorem exists_cycles (sink : Sink σ) (hc : c.machine.runState = .running)
    (htr : c.machine.config.tracing = true) :
    ∃ k n, n ≤ k + 1 ∧ c.Advances sink k ∧ (∃ result, c.run sink = c.answer sink n result) ∧
      LogEnding sink c n (c.run sink) := by
  cases run_cases sink (fun _ => false) c.machine.config.stepLimit hc with
  -- all of the `k` cycles retired an instruction, so none of them was the last word
  | limit k hadv _ _ _ hrun =>
    change c.run sink = _ at hrun
    refine ⟨k, k, Nat.le_succ k, hadv, ⟨_, hrun⟩, .stepLimit hadv (by rw [hrun]; rfl) ?_⟩
    rw [hrun, answer, events_eq_log htr hadv.runs]
    exact not_isFinal_of_mem_log hadv
  -- there is no stop signal
  | stopped k _ _ _ _ hsignal _ => cases hsignal
  -- one cycle more, which the closing event names
  | halted k hadv _ _ hend hrun =>
    change c.run sink = _ at hrun
    refine ⟨k, k + 1, Nat.le_refl _, hadv, ⟨_, hrun⟩, .halted k hadv rfl (by rw [hrun]; rfl) ?_⟩
    have hk := runState_after hc hadv
    rw [hrun, answer, events_eq_log htr (hadv.runs_succ hc), getLast?_log, after_succ',
      pc_next_of_stuck hk (stuck_of_halted hend), (closedBy_closing sink hk).halts hend]
  | faulted k hadv _ _ fault hend hrun =>
    change c.run sink = _ at hrun
    refine ⟨k, k + 1, Nat.le_refl _, hadv, ⟨_, hrun⟩,
      .faulted k hadv rfl fault (by rw [hrun]; rfl) ?_⟩
    have hk := runState_after hc hadv
    rw [hrun, answer, events_eq_log htr (hadv.runs_succ hc), getLast?_log, after_succ',
      pc_next_of_stuck hk (stuck_of_error hend), (closedBy_closing sink hk).faults fault hend]

/-- **The event log is a complete and faithful record of a run.** -/
theorem log_faithful (sink : Sink σ) (c : Stage σ) (hc : c.machine.runState = .running)
    (htr : c.machine.config.tracing = true) (hpc : c.machine.pc ≤ 256) :
    ∃ n, FaithfulLog sink c n := by
  obtain ⟨k, n, hn, hadv, ⟨result, hanswer⟩, hending⟩ := exists_cycles sink hc htr
  have hrun : c.Runs sink n :=
    fun i hi => hadv.runs_succ hc i (Nat.lt_of_lt_of_le hi hn)
  have hlog : (c.run sink).events = c.log sink n := by
    rw [hanswer]
    exact events_eq_log htr hrun
  refine ⟨n, ?_⟩
  exact {
    runs := hrun
    retires := fun i hi => hadv i (by omega)
    machine_eq := by rw [hanswer]; rfl
    sink_eq := by rw [hanswer]; rfl
    events_eq := hlog
    opening_eq_nil_iff := by
      intro i hi
      exact Stage.opening_eq_nil_iff (pc_after_le hpc (hadv.mono (by omega)))
    outputs_eq := by
      -- the recorded run counts its own cycles; they report the same events
      obtain ⟨n', result', hrun', hanswer', hrecord⟩ :=
        exists_answer_record sink (fun _ => false) c.machine.config.stepLimit hc []
      refine ⟨c.offersOf sink n', ?_, ?_⟩
      · change c.run sink = _ at hanswer'
        rw [hanswer']
        exact hrecord
      · change c.run sink = _ at hanswer'
        rw [hanswer', answer, events_eq_log htr hrun', output?_log hrun']
    replay_eq := by
      rw [hlog, replay_log hrun, hanswer]
      rfl
    registers_eq := by
      -- the recursive form of this speaks about every split of the log
      intro before pc opcode frame later hsplit
      have hstarts := startsReplayed_log hrun
      rw [← hlog, hsplit] at hstarts
      exact hstarts.registers_eq
    starts_increase := by
      rw [hlog, startPc?_log hrun]
      refine List.Pairwise.filter _ ?_
      cases n with
      | zero => exact List.Pairwise.nil
      | succ n => exact pairwise_pc_path (hadv.mono (Nat.le_of_succ_le_succ hn))
    final_last := by
      rw [hlog]
      cases n with
      | zero => simp [log, path]
      | succ n => exact not_isFinal_of_mem_dropLast_log (hadv.mono (Nat.le_of_succ_le_succ hn))
    ending := hending }

/-- A machine that traces and is about to load 8 into a register, print it, and run off into a byte
that is no opcode. -/
def tracedPrint : Machine :=
  { Machine.new with
    memory := .ofProgram [0x82, 0, 8, 0x47, 0, 0xFF], config := { tracing := true } }

/-- A machine that traces, prints one value and halts. -/
theorem log_faithful_tracedPrint :
    tracedPrint.runState = .running ∧ tracedPrint.config.tracing = true ∧
      tracedPrint.pc ≤ 256 ∧
      ∃ n, FaithfulLog .collect (⟨tracedPrint, []⟩ : Stage (List UInt8)) n :=
  ⟨rfl, rfl, by decide, log_faithful .collect ⟨tracedPrint, []⟩ rfl rfl (by decide)⟩

-- three cycles start, and the last one faults
example : (tracedPrint.run .collect []).events.filterMap TraceEvent.startPc? = [0, 3, 5] ∧
    (tracedPrint.run .collect []).events.getLast? =
      some (.faultRaised (.illegalInstruction 0xFF 5) 5) := by
  decide +kernel

end Stage

end LS8
