import LS8.Proofs.Machine.Answers

/-!
# Tracing does not influence execution

`Machine.muted` is a machine with tracing switched off. It does whatever the machine does and
reports nothing: muting before a request and muting its answer come to the same, for one step
(`Machine.step_muted`), for a whole run (`Stage.runLoop_muted`), and for every call
(`Stage.perform_muted`, `Stage.answer_muted`).

Two machines that differ in nothing but tracing have the same muted form. So a session goes the same
way on both of them, whatever listeners each of them is given (`Stage.attend_muted`), and a listener
to a machine that does not trace hears nothing (`Stage.heard_attend_muted`).
-/

namespace LS8

variable {σ τ τ' α : Type}

/-- The machine with tracing switched off. -/
def Machine.muted (m : Machine) : Machine :=
  { m with config := { m.config with tracing := false } }

/-- The stage with tracing switched off. -/
def Stage.muted (c : Stage σ) : Stage σ := ⟨c.machine.muted, c.sink⟩

/-- The answer of a machine that reports nothing. -/
def Response.muted (r : Response σ α) : Response σ α := ⟨r.result, r.machine.muted, r.sink, []⟩

namespace Machine

variable {m : Machine} {sink : Sink σ} {s : σ}

/-- There is nothing to switch off where nothing is traced. -/
theorem muted_of_not_tracing (h : m.config.tracing = false) : m.muted = m := by
  obtain ⟨memory, registers, pc, runState, tracing, stepLimit⟩ := m
  obtain rfl : tracing = false := h
  rfl

/-- **Tracing does not influence a step.** -/
theorem step_muted (sink : Sink σ) (m : Machine) (s : σ) :
    m.muted.step sink s = (m.step sink s).muted := by
  cases hm : m.runState with
  | halted =>
    have hm' : m.muted.runState = .halted := hm
    simp only [step, hm, hm', Response.muted]
  | faulted fault =>
    have hm' : m.muted.runState = .faulted fault := hm
    simp only [step, hm, hm', Response.muted]
  | running =>
    have hm' : m.muted.runState = .running := hm
    -- decoding reads the memory at the program counter, and muting changes neither
    cases step_cases sink s hm with
    | undecodable fault hd hstep => rw [hstep, step_of_decode_error hm' hd]; rfl
    | hlt hd hstep => rw [hstep, step_hlt hm' hd]; rfl
    | ldi dest value hd hstep => rw [hstep, step_ldi hm' hd]; rfl
    | mul dest src hd hstep => rw [hstep, step_mul hm' hd]; rfl
    | accepted src s' hd hs hstep => rw [hstep, step_prn_accepted hm' hd hs]; rfl
    | refused src s' hd hs hstep => rw [hstep, step_prn_refused hm' hd hs]; rfl

/-! ### Requests that may fail -/

/-- A request changes the muted machine as it changes the machine. -/
theorem settle_muted (m : Machine) (answer : Except Fault Machine) :
    m.muted.settle (answer.map muted) = (m.settle answer).muted := by
  cases answer with
  | ok m' => rfl
  | error fault => rfl

/-- Whether a request succeeded does not depend on the tracing. -/
theorem succeeded_muted (answer : Except Fault Machine) :
    (answer.map muted).map (fun _ => ()) = answer.map fun _ => () := by
  cases answer with
  | ok m' => rfl
  | error fault => rfl

theorem load_muted (m : Machine) (image : List UInt8) :
    m.muted.load image = (m.load image).map muted := by
  unfold load
  cases Memory.loadImage image with
  | ok memory => rfl
  | error fault => rfl

theorem write_muted (m : Machine) (address : Nat) (byte : UInt8) :
    m.muted.write address byte = (m.write address byte).map muted := by
  unfold write
  rw [show m.muted.memory = m.memory from rfl]
  cases m.memory.write address byte with
  | ok memory => rfl
  | error fault => rfl

theorem writeValue_muted (m : Machine) (address value : Nat) :
    m.muted.writeValue address value = (m.writeValue address value).map muted := by
  unfold writeValue
  rw [show m.muted.memory = m.memory from rfl]
  cases m.memory.writeValue address value with
  | ok memory => rfl
  | error fault => rfl

theorem restore_muted (m : Machine) (snapshot : Snapshot) :
    m.muted.restore snapshot = (m.restore snapshot).map muted := by
  unfold restore
  split
  · rfl
  · cases Memory.ofImage snapshot.memory with
    | ok memory => rfl
    | error fault => rfl

/-- The arithmetic unit answers with a value beside the machine. -/
theorem alu_muted (m : Machine) (op : AluOp) (dest src : Nat) :
    m.muted.alu op dest src =
      (m.alu op dest src).map fun (value, m') => (value, m'.muted) := by
  unfold alu
  rw [show m.muted.registers = m.registers from rfl]
  simp only [bind, Except.bind]
  cases Register.select dest with
  | error fault => rfl
  | ok d =>
    cases Register.select src with
    | error fault => rfl
    | ok r =>
      -- both registers are there, and what remains is whether the operation has a result
      dsimp only
      cases m.registers.apply op d r with
      | error fault => rfl
      | ok answer => rfl

end Machine

namespace Stage

variable {sink : Sink σ} {stop : σ → Bool} {limit : Option Nat} {c d : Stage σ}

/-! ### Runs -/

theorem step_muted (sink : Sink σ) (c : Stage σ) : c.muted.step sink = (c.step sink).muted :=
  Machine.step_muted sink c.machine c.sink

theorem next_muted (sink : Sink σ) (c : Stage σ) : c.muted.next sink = (c.next sink).muted := by
  unfold next
  rw [step_muted]
  rfl

/-- The muted machine goes through the muted stages. -/
theorem after_muted (n : Nat) : c.muted.after sink n = (c.after sink n).muted := by
  induction n with
  | zero => rfl
  | succ n ih => rw [after_succ', after_succ', ih, next_muted]

/-- It reports nothing on the way. -/
theorem events_muted (n : Nat) : c.muted.events sink n = [] := by
  induction n generalizing c with
  | zero => rfl
  | succ n ih =>
    rw [events_succ, next_muted, ih, step_muted]
    rfl

/-- The run loop cannot tell a muted execution from the one that may trace. -/
theorem alike_muted (n : Nat) : Alike sink stop c sink stop c.muted n where
  -- no answer of a step depends on the tracing, and neither do the look-ahead and the signal
  result_eq := by
    intro i _
    rw [after_muted, step_muted]
    rfl
  atHalt_eq := by
    intro i _
    rw [after_muted]
    rfl
  stop_eq := by
    intro i _
    rw [after_muted]
    rfl

/-- **Tracing does not influence a run.** -/
theorem runLoop_muted (sink : Sink σ) (stop : σ → Bool) (limit : Option Nat) (c : Stage σ) :
    c.muted.runLoop sink stop limit = (c.runLoop sink stop limit).muted := by
  cases hm : c.machine.runState with
  | halted =>
    have hm' : c.muted.machine.runState = .halted := hm
    rw [runLoop, runLoop, Machine.runLoop_of_halted hm, Machine.runLoop_of_halted hm']
    rfl
  | faulted fault =>
    have hm' : c.muted.machine.runState = .faulted fault := hm
    rw [runLoop, runLoop, Machine.runLoop_of_faulted hm, Machine.runLoop_of_faulted hm']
    rfl
  | running =>
    have hm' : c.muted.machine.runState = .running := hm
    -- both runs make the same requests, and end in the same way behind them
    obtain ⟨n, result, hcourse⟩ := exists_course sink stop limit hm
    rw [hcourse.runLoop_eq hm, (hcourse.transfer (alike_muted n)).runLoop_eq hm', answer,
      after_muted, events_muted]
    rfl

/-! ### Calls -/

/-- **Tracing does not influence what a call does.** -/
theorem perform_muted (call : Call σ) (c : Stage σ) :
    call.perform c.muted = (call.perform c).muted := by
  have hrun : ∀ (sink : Sink σ) stop limit, (c.muted.runLoop sink stop limit).stage =
      (c.runLoop sink stop limit).stage.muted := by
    intro sink stop limit
    rw [runLoop_muted]
    rfl
  -- a request that may fail fails on both machines, or makes machines with the same muted form
  have hsettle : ∀ (answer answer' : Except Fault Machine), answer' = answer.map Machine.muted →
      (⟨c.machine.muted.settle answer', c.sink⟩ : Stage σ) =
        Stage.muted ⟨c.machine.settle answer, c.sink⟩ := by
    rintro answer _ rfl
    rw [Machine.settle_muted]
    rfl
  cases call with
  | step sink => exact next_muted sink c
  | run sink => exact hrun sink (fun _ => false) c.machine.config.stepLimit
  | runWithLimit sink limit => exact hrun sink (fun _ => false) (some limit)
  | runUntil sink stop => exact hrun sink stop c.machine.config.stepLimit
  | reset => rfl
  | patch memory => rfl
  | load image => exact hsettle _ _ (Machine.load_muted c.machine image)
  | write address byte => exact hsettle _ _ (Machine.write_muted c.machine address byte)
  | writeValue address value =>
    exact hsettle _ _ (Machine.writeValue_muted c.machine address value)
  | restore snapshot => exact hsettle _ _ (Machine.restore_muted c.machine snapshot)
  | alu op dest src =>
    refine hsettle _ _ ?_
    change (c.machine.muted.alu op dest src).map _ = _
    rw [Machine.alu_muted]
    cases c.machine.alu op dest src with
    | ok answer => rfl
    | error fault => rfl

/-- **Nor what it answers.** -/
theorem answer_muted (call : Call σ) (c : Stage σ) : call.answer c.muted = call.answer c := by
  have hrun : ∀ (sink : Sink σ) stop limit, (c.muted.runLoop sink stop limit).result =
      (c.runLoop sink stop limit).result := by
    intro sink stop limit
    rw [runLoop_muted]
    rfl
  -- a request that changes the machine tells only whether it succeeded
  have hdone : ∀ (answer answer' : Except Fault Machine), answer' = answer.map Machine.muted →
      Answer.done (answer'.map fun _ => ()) = .done (answer.map fun _ => ()) := by
    rintro answer _ rfl
    rw [Machine.succeeded_muted]
  cases call with
  | step sink =>
    change Answer.stepped (c.muted.step sink).result = .stepped (c.step sink).result
    rw [step_muted]
    rfl
  | run sink => exact congrArg Answer.ran (hrun sink (fun _ => false) c.machine.config.stepLimit)
  | runWithLimit sink limit => exact congrArg Answer.ran (hrun sink (fun _ => false) (some limit))
  | runUntil sink stop => exact congrArg Answer.ran (hrun sink stop c.machine.config.stepLimit)
  | reset => rfl
  | patch memory => rfl
  | load image => exact hdone _ _ (Machine.load_muted c.machine image)
  | write address byte => exact hdone _ _ (Machine.write_muted c.machine address byte)
  | writeValue address value => exact hdone _ _ (Machine.writeValue_muted c.machine address value)
  | restore snapshot => exact hdone _ _ (Machine.restore_muted c.machine snapshot)
  | alu op dest src =>
    change Answer.computed ((c.machine.muted.alu op dest src).map (·.1)) =
      .computed ((c.machine.alu op dest src).map (·.1))
    rw [Machine.alu_muted]
    cases c.machine.alu op dest src with
    | ok answer => rfl
    | error fault => rfl

/-- A machine that does not trace reports nothing to a listener. -/
theorem reported_muted (call : Call σ) (c : Stage σ) : call.reported c.muted = [] := by
  cases call with
  | step sink =>
    change (c.muted.step sink).events = []
    rw [step_muted]
    rfl
  | run sink =>
    change (c.muted.runLoop sink (fun _ => false) c.machine.config.stepLimit).events = []
    rw [runLoop_muted]
    rfl
  | _ => rfl

/-! ### Sessions -/

/-- **A session goes as it goes without tracing.** The muted machine gives the same answers to the
same calls and leaves the same sink, whoever listens. -/
theorem attend_muted (c : Stage σ) (t : τ) (t' : τ') {script : List (Attended σ τ)}
    {script' : List (Attended σ τ')} (h : script'.map (·.call) = script.map (·.call)) :
    (c.muted.attend t' script').answers = (c.attend t script).answers ∧
      (c.muted.attend t' script').stage = (c.attend t script).stage.muted := by
  induction script generalizing c t t' script' with
  | nil =>
    obtain rfl : script' = [] := List.map_eq_nil_iff.mp h
    exact ⟨rfl, rfl⟩
  | cons a later ih =>
    -- the first calls are the same one, and what they leave has the same muted form
    obtain ⟨a', later', rfl, hcall, hlater⟩ := List.map_eq_cons_iff.mp h
    simp only at hcall
    obtain ⟨hanswers, hstage⟩ := ih (a.call.perform c) (a.heard c t) (a'.heard c.muted t') hlater
    simp only [attend]
    rw [hcall, perform_muted, answer_muted]
    exact ⟨by rw [hanswers], hstage⟩

/-- Listeners to a machine that does not trace hear nothing. -/
theorem heard_attend_muted (c : Stage σ) (t : τ) (script : List (Attended σ τ)) :
    (c.muted.attend t script).heard = t := by
  induction script generalizing c with
  | nil => rfl
  | cons a later ih =>
    simp only [attend]
    rw [Attended.heard_of_silent (reported_muted a.call c), perform_muted]
    exact ih (a.call.perform c)

/-- **Tracing never influences execution.** Two machines that differ at most in whether they trace
go through the same calls with the same answers; they leave the sink in the same state, and machines
that again differ at most in whether they trace. Each of the two may be listened to at any of its
steps and runs, by any listener, or not at all. A machine that does not trace reports nothing to any
of them. -/
theorem tracing_influences_nothing {m m' : Machine} (hm : m'.muted = m.muted) (s : σ)
    (t : τ) (t' : τ') {script : List (Attended σ τ)} {script' : List (Attended σ τ')}
    (h : script'.map (·.call) = script.map (·.call)) :
    ((⟨m', s⟩ : Stage σ).attend t' script').answers =
        ((⟨m, s⟩ : Stage σ).attend t script).answers ∧
      ((⟨m', s⟩ : Stage σ).attend t' script').stage.sink =
        ((⟨m, s⟩ : Stage σ).attend t script).stage.sink ∧
      ((⟨m', s⟩ : Stage σ).attend t' script').stage.machine.muted =
        ((⟨m, s⟩ : Stage σ).attend t script).stage.machine.muted ∧
      (m.config.tracing = false → ((⟨m, s⟩ : Stage σ).attend t script).heard = t) := by
  -- both sessions are compared with the one of the muted machine, which they share
  have hcalls : script.map (·.call) = script.map (·.call) := rfl
  obtain ⟨hanswers, hstage⟩ := attend_muted (⟨m, s⟩ : Stage σ) t t hcalls
  obtain ⟨hanswers', hstage'⟩ := attend_muted (⟨m', s⟩ : Stage σ) t' t h.symm
  have hshared : (⟨m', s⟩ : Stage σ).muted = (⟨m, s⟩ : Stage σ).muted :=
    congrArg (Stage.mk · s) hm
  rw [hshared, hstage] at hstage'
  refine ⟨?_, ?_, ?_, ?_⟩
  · rw [← hanswers', hshared, hanswers]
  · exact (congrArg Stage.sink hstage').symm
  · exact (congrArg Stage.machine hstage').symm
  · intro hquiet
    have hself : (⟨m, s⟩ : Stage σ).muted = ⟨m, s⟩ :=
      congrArg (Stage.mk · s) (Machine.muted_of_not_tracing hquiet)
    rw [← hself]
    exact heard_attend_muted ⟨m, s⟩ t script

/-- The listener that keeps every event. -/
def keepsEvents : Listener (List TraceEvent) where
  hear events event := events ++ [event]

/-- A machine that prints a register, loads another one and then finds no instruction. -/
def printsAndFaults (tracing : Bool) : Machine :=
  { Machine.withConfig { tracing } with memory := .ofProgram [0x47, 0, 0x82, 1, 5] }

/-- Steps, runs into the fault, and runs again with a sink that refuses everything. -/
def stepsAndRuns (listener : Option (Listener (List TraceEvent))) :
    List (Attended (List UInt8) (List TraceEvent)) :=
  [⟨.step .collect, listener⟩, ⟨.run .collect, listener⟩, ⟨.reset, none⟩,
    ⟨.run (.bounded (some 0)), listener⟩]

/-- The same session with and without tracing, through a fault and a refused value. -/
theorem tracing_influences_nothing_printsAndFaults :
    (printsAndFaults true).muted = (printsAndFaults false).muted ∧
      (stepsAndRuns (some keepsEvents)).map (·.call) = (stepsAndRuns none).map (·.call) ∧
      (printsAndFaults false).config.tracing = false ∧
      ((⟨printsAndFaults true, []⟩ : Stage _).attend [] (stepsAndRuns (some keepsEvents))).answers =
        ((⟨printsAndFaults false, []⟩ : Stage _).attend [] (stepsAndRuns none)).answers ∧
      ((⟨printsAndFaults false, []⟩ : Stage _).attend [] (stepsAndRuns none)).heard = [] ∧
      ((⟨printsAndFaults true, []⟩ : Stage _).attend []
        (stepsAndRuns (some keepsEvents))).heard ≠ [] := by
  have hm : (printsAndFaults true).muted = (printsAndFaults false).muted := rfl
  have hcalls : (stepsAndRuns (some keepsEvents)).map (·.call) =
      (stepsAndRuns none).map (·.call) := rfl
  -- the traced session does report something, so silence is not the reason for the agreement
  have heard : ((⟨printsAndFaults true, []⟩ : Stage _).attend []
      (stepsAndRuns (some keepsEvents))).heard ≠ [] := by
    decide +kernel
  obtain ⟨hanswers, -, -, hquiet⟩ := tracing_influences_nothing hm [] [] [] hcalls
  exact ⟨hm, hcalls, rfl, hanswers, hquiet rfl, heard⟩

end Stage

end LS8
