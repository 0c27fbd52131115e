import LS8.Proofs.Machine.Course

/-!
# What a sink is offered

A sink's state need not show what happened to it. `Sink.recording` adds a record: it answers like
the sink it is built from and keeps every value that it was offered, with the answer. Recording does
not influence an execution (`Stage.after_record`, `Stage.exists_answer_record`), so the record is
what the sink itself was offered.

One step offers at most one value, the one of a print instruction (`Stage.offers`), and the record
of a stretch of steps is made up of these.
-/

namespace LS8

variable {σ τ α : Type}

/-- The sink that answers like `sink` and records every value that it is offered, with the
answer. -/
def Sink.recording (sink : Sink σ) : Sink (σ × List (UInt8 × Bool)) where
  emit state value :=
    ((sink.emit state.1 value).1,
      (sink.emit state.1 value).2, state.2 ++ [(value, (sink.emit state.1 value).1)])

/-- The values that were accepted, out of those that were offered. -/
def accepted (offers : List (UInt8 × Bool)) : List UInt8 :=
  (offers.filter (·.2)).map (·.1)

theorem accepted_append (a b : List (UInt8 × Bool)) :
    accepted (a ++ b) = accepted a ++ accepted b := by
  unfold accepted
  rw [List.filter_append, List.map_append]

/-- The value that a machine is about to print, if its next instruction is a print instruction. -/
def Machine.print? (m : Machine) : Option UInt8 :=
  match m.runState, decode m.memory m.pc with
  | .running, .ok (.prn src) => some (m.registers.get src)
  | _, _ => none

/-- The same answer with another view of the sink. -/
def Response.mapSink (f : σ → τ) (r : Response σ α) : Response τ α :=
  ⟨r.result, r.machine, f r.sink, r.events⟩

namespace Stage

variable {sink : Sink σ} {stop : σ → Bool} {limit : Option Nat} {c : Stage σ}
variable {log : List (UInt8 × Bool)}

/-- What a step request offers to the sink: the value of a print instruction, with the answer. -/
def offers (sink : Sink σ) (c : Stage σ) : List (UInt8 × Bool) :=
  match c.machine.runState, decode c.machine.memory c.machine.pc with
  | .running, .ok (.prn src) =>
    [(c.machine.registers.get src, (sink.emit c.sink (c.machine.registers.get src)).1)]
  | _, _ => []

/-- A request offers the value of the next print, if there is one, with the answer of the sink. -/
theorem offers_eq (sink : Sink σ) (c : Stage σ) : c.offers sink =
    c.machine.print?.toList.map fun value => (value, (sink.emit c.sink value).1) := by
  unfold offers Machine.print?
  cases c.machine.runState with
  | halted => simp
  | faulted fault => simp
  | running =>
    cases decode c.machine.memory c.machine.pc with
    | error fault => simp
    | ok i => cases i <;> simp

/-- What is offered does not depend on the sink. -/
theorem values_offers (sink : Sink σ) (c : Stage σ) :
    (c.offers sink).map (·.1) = c.machine.print?.toList := by
  rw [offers_eq, List.map_map]
  exact List.map_id _

/-- Whoever offers a value stands in front of a print. -/
theorem print?_of_offers {value : UInt8} {taken : Bool} (h : c.offers sink = [(value, taken)]) :
    c.machine.print? = some value := by
  have hvalues := values_offers sink c
  rw [h] at hvalues
  exact Option.toList_eq_singleton_iff.mp hvalues.symm

/-- A request offers at most one value. -/
theorem length_offers_le : (c.offers sink).length ≤ 1 := by
  rw [offers_eq]
  cases c.machine.print? with
  | none => exact Nat.zero_le 1
  | some value => exact Nat.le_refl 1

/-- What a step request makes of the sink: it hears of the printed value, and of nothing else. -/
def heard (sink : Sink σ) (c : Stage σ) : σ :=
  match c.machine.print? with
  | some value => (sink.emit c.sink value).2
  | none => c.sink

/-- **A step depends on the sink's answer only.** Equal machines step alike, whatever their sinks
are, if these accept or refuse the printed value alike. -/
theorem step_of_answers {sink' : Sink τ} {d : Stage τ} (hmachine : d.machine = c.machine)
    (h : ∀ value ∈ c.machine.print?, (sink'.emit d.sink value).1 = (sink.emit c.sink value).1) :
    d.step sink' =
      ⟨(c.step sink).result, (c.step sink).machine, d.heard sink', (c.step sink).events⟩ := by
  obtain ⟨m, s⟩ := c
  obtain ⟨m', t⟩ := d
  obtain rfl : m' = m := hmachine
  simp only [step, heard]
  -- a terminal machine asks the sink nothing; a running one at a print instruction only
  cases hm : m'.runState with
  | halted => simp [Machine.step, Machine.print?, hm]
  | faulted fault => simp [Machine.step, Machine.print?, hm]
  | running =>
    cases Machine.step_cases sink s hm with
    | undecodable fault hd hstep =>
      rw [hstep, Machine.step_of_decode_error hm hd]
      simp [Machine.stepFault, Machine.print?, hm, hd]
    | hlt hd hstep =>
      rw [hstep, Machine.step_hlt hm hd]
      simp [Machine.stepHalted, Machine.print?, hm, hd]
    | ldi dest value hd hstep =>
      rw [hstep, Machine.step_ldi hm hd]
      simp [Machine.stepRetired, Machine.print?, hm, hd]
    | mul dest src hd hstep =>
      rw [hstep, Machine.step_mul hm hd]
      simp [Machine.stepRetired, Machine.print?, hm, hd]
    | accepted src s' hd hs hstep =>
      have hprint : m'.print? = some (m'.registers.get src) := by simp [Machine.print?, hm, hd]
      have hanswer : (sink'.emit t (m'.registers.get src)).1 = true := by rw [h _ hprint, hs]
      rw [hstep, Machine.step_prn_accepted hm hd (Prod.ext hanswer rfl), hprint]
      rfl
    | refused src s' hd hs hstep =>
      have hprint : m'.print? = some (m'.registers.get src) := by simp [Machine.print?, hm, hd]
      have hanswer : (sink'.emit t (m'.registers.get src)).1 = false := by rw [h _ hprint, hs]
      rw [hstep, Machine.step_prn_refused hm hd (Prod.ext hanswer rfl), hprint]
      rfl

/-- A step request leaves the sink as it is, or as the printed value makes it. -/
theorem sink_step (sink : Sink σ) (c : Stage σ) : (c.step sink).sink = c.heard sink := by
  have hsame : c.step sink = ⟨_, _, c.heard sink, _⟩ := step_of_answers rfl fun _ _ => rfl
  rw [hsame]

/-! ### What is refused -/

/-- A request that retires an instruction was refused nothing. -/
theorem accepts_of_retires (h : c.Retires sink) : ∀ offer ∈ c.offers sink, offer.2 = true := by
  have hm := h.runState_eq
  obtain ⟨pc, length, hr⟩ := h
  cases Machine.retire_cases hr with
  | ldi dest value hd hstep => simp [offers, hm, hd]
  | mul dest src hd hstep => simp [offers, hm, hd]
  | accepted src s' hd hs hstep => simp [offers, hm, hd, hs]

/-- A halt offers nothing. -/
theorem offers_of_halted (hc : c.machine.runState = .running)
    (h : (c.step sink).result = .ok .halted) : c.offers sink = [] := by
  simp [offers, hc, (Machine.step_of_halted hc h).1]

/-- A request that faults has offered nothing, because there is no instruction to execute, or it has
offered one value that was refused. -/
theorem offers_of_error (hc : c.machine.runState = .running) {fault : Fault}
    (h : (c.step sink).result = .error fault) :
    c.offers sink = [] ∧ decode c.machine.memory c.machine.pc = .error fault ∨
      ∃ value, c.offers sink = [(value, false)] ∧ fault = .outputFailed c.machine.pc := by
  cases Machine.fault_cases hc h with
  | undecodable _ hd hstep => exact .inl ⟨by simp [offers, hc, hd], hd⟩
  | refused src s' hd hs hstep =>
    exact .inr ⟨c.machine.registers.get src, by simp [offers, hc, hd, hs], rfl⟩

/-! ### A record beside the sink -/

/-- The stage with a record beside the sink. -/
def record (c : Stage σ) (log : List (UInt8 × Bool)) : Stage (σ × List (UInt8 × Bool)) :=
  ⟨c.machine, c.sink, log⟩

/-- **Recording does not influence a step**, and the record grows by what the step offers. -/
theorem step_record :
    (c.record log).step sink.recording =
      (c.step sink).mapSink fun s => (s, log ++ c.offers sink) := by
  have hmachine : (c.record log).machine = c.machine := rfl
  have hanswer : ∀ value ∈ c.machine.print?,
      (sink.recording.emit (c.record log).sink value).1 = (sink.emit c.sink value).1 :=
    fun _ _ => rfl
  -- the recorder hears the value that is printed, together with the answer to it
  have hheard : (c.record log).heard sink.recording = (c.heard sink, log ++ c.offers sink) := by
    rw [offers_eq]
    unfold heard record
    cases c.machine.print? with
    | none => simp
    | some value => simp [Sink.recording]
  rw [step_of_answers hmachine hanswer, hheard, ← sink_step]
  rfl

/-- A record beside the sink grows by the offers of the request and changes nothing else. -/
theorem next_record : (c.record log).next sink.recording =
    (c.next sink).record (log ++ c.offers sink) := by
  rw [next, step_record]
  rfl

/-- What the first `n` step requests offer. -/
def offersOf (sink : Sink σ) (c : Stage σ) (n : Nat) : List (UInt8 × Bool) :=
  (c.path sink n).flatMap (offers sink)

/-- The offers of a stretch grow by those of its last request. -/
theorem offersOf_succ (n : Nat) :
    c.offersOf sink (n + 1) = c.offersOf sink n ++ (c.after sink n).offers sink := by
  rw [offersOf, offersOf, path_succ', List.flatMap_append, List.flatMap_singleton]

/-- **A record beside the sink is the list of offers**, however long the stretch is. -/
theorem after_record (n : Nat) : (c.record log).after sink.recording n =
    (c.after sink n).record (log ++ c.offersOf sink n) := by
  induction n generalizing c log with
  | zero => simp [offersOf, path]
  | succ n ih =>
    rw [after_succ, next_record, ih, after_succ]
    simp [offersOf, path_succ]

/-- Recording does not show in the events. -/
theorem events_record (n : Nat) :
    (c.record log).events sink.recording n = c.events sink n := by
  induction n generalizing c log with
  | zero => rfl
  | succ n ih =>
    rw [events_succ, events_succ, next_record, ih, step_record]
    rfl

/-- Nor does it show in the answer. -/
theorem answer_record (n : Nat) (result : Except Fault RunOutcome) :
    (c.record log).answer sink.recording n result =
      (c.answer sink n result).mapSink fun s => (s, log ++ c.offersOf sink n) := by
  unfold answer
  rw [after_record, events_record]
  rfl

/-- The run loop cannot tell a recorded execution from the one without a record. -/
theorem alike_record (n : Nat) : Alike sink stop c sink.recording (fun state => stop state.1)
    (c.record log) n where
  -- recording passes on every answer, and the signal only looks at the recorded sink
  result_eq := by
    intro i _
    rw [after_record, step_record]
    rfl
  atHalt_eq := by
    intro i _
    rw [after_record]
    rfl
  stop_eq := by
    intro i _
    rw [after_record]
    rfl

/-- **Recording does not influence a run.** A run with a record answers like the run without, and
the record grows by what the run's step requests offer. -/
theorem Course.runLoop_record {n : Nat} {result : Except Fault RunOutcome}
    (hc : c.machine.runState = .running) (h : Course sink stop limit c n result)
    (log : List (UInt8 × Bool)) :
    (c.record log).runLoop sink.recording (fun state => stop state.1) limit =
      (c.answer sink n result).mapSink fun s => (s, log ++ c.offersOf sink n) := by
  have hc' : (c.record log).machine.runState = .running := hc
  rw [(h.transfer (alike_record n)).runLoop_eq hc', answer_record]

/-- **A run with a record has the same answer**, and the record is the offers of its requests. -/
theorem exists_answer_record (sink : Sink σ) (stop : σ → Bool) (limit : Option Nat)
    (hc : c.machine.runState = .running) (log : List (UInt8 × Bool)) :
    ∃ n result, c.Runs sink n ∧
      c.runLoop sink stop limit = c.answer sink n result ∧
      (c.record log).runLoop sink.recording (fun state => stop state.1) limit =
        (c.answer sink n result).mapSink fun s => (s, log ++ c.offersOf sink n) := by
  obtain ⟨n, result, hcourse⟩ := exists_course sink stop limit hc
  exact ⟨n, result, hcourse.runs hc, hcourse.runLoop_eq hc, hcourse.runLoop_record hc log⟩

end Stage

end LS8
