import LS8.Proofs.Machine.RunLoop

/-!
# The course of a run

The run loop looks at little: whether a step request retires an instruction, what the last request
answers, whether the next instruction is the halt instruction, and the stop signal. `Stage.Course`
says in these terms how many requests a run makes and what it reports. A run has a course
(`Stage.exists_course`), and the course fixes the answer (`Stage.Course.runLoop_eq`).

Two executions that show the run loop the same things up to some request are `Stage.Alike` so far.
If they are alike for as many requests as one of the runs makes, then the other run makes the same
ones and reports the same (`Stage.Course.transfer`). Their machines and sinks may differ in
everything that the run loop does not look at.
-/

namespace LS8

namespace Stage

variable {σ τ : Type} {sink : Sink σ} {sink' : Sink τ} {stop : σ → Bool} {stop' : τ → Bool}
variable {limit : Option Nat} {c : Stage σ} {d : Stage τ} {n : Nat}
variable {result : Except Fault RunOutcome}

/-- **How a run goes.** The number of requests that it makes, and what it reports after them. The
cases are those of `RunCase`, without the answer that follows. -/
inductive Course (sink : Sink σ) (stop : σ → Bool) (limit : Option Nat) (c : Stage σ) :
    Nat → Except Fault RunOutcome → Prop
  | limit (k : Nat) (advances : c.Advances sink k) (unstopped : c.Unstopped sink stop k)
      (used : limit = some k) (waiting : (c.after sink k).machine.atHalt = false) :
      Course sink stop limit c k (.ok ⟨k, .stepLimit⟩)
  | stopped (k : Nat) (advances : c.Advances sink k) (unstopped : c.Unstopped sink stop k)
      (within : ∀ n ∈ limit, k ≤ n)
      (waiting : limit = some k → (c.after sink k).machine.atHalt = true)
      (signal : stop (c.after sink k).sink = true) :
      Course sink stop limit c k (.ok ⟨k, .interrupted⟩)
  | halted (k : Nat) (advances : c.Advances sink k) (unstopped : c.Unstopped sink stop (k + 1))
      (within : ∀ n ∈ limit, k ≤ n) (halts : ((c.after sink k).step sink).result = .ok .halted) :
      Course sink stop limit c (k + 1) (.ok ⟨k, .halted⟩)
  | faulted (k : Nat) (advances : c.Advances sink k) (unstopped : c.Unstopped sink stop (k + 1))
      (within : ∀ n ∈ limit, k < n) (fault : Fault)
      (faults : ((c.after sink k).step sink).result = .error fault) :
      Course sink stop limit c (k + 1) (.error fault)

/-- **Every run has a course.** -/
theorem exists_course (sink : Sink σ) (stop : σ → Bool) (limit : Option Nat)
    (hc : c.machine.runState = .running) : ∃ n result, Course sink stop limit c n result := by
  cases run_cases sink stop limit hc with
  | limit k hadv hstop hused hhalt _ => exact ⟨k, _, .limit k hadv hstop hused hhalt⟩
  | stopped k hadv hstop hwithin hwaiting hsignal _ =>
    exact ⟨k, _, .stopped k hadv hstop hwithin hwaiting hsignal⟩
  | halted k hadv hstop hwithin hend _ => exact ⟨k + 1, _, .halted k hadv hstop hwithin hend⟩
  | faulted k hadv hstop hwithin fault hend _ =>
    exact ⟨k + 1, _, .faulted k hadv hstop hwithin fault hend⟩

/-- **The course fixes the answer.** -/
theorem Course.runLoop_eq (hc : c.machine.runState = .running)
    (h : Course sink stop limit c n result) :
    c.runLoop sink stop limit = c.answer sink n result := by
  cases h with
  | limit k hadv hstop hused hhalt =>
    rw [hused]
    exact runLoop_of_limit hc hadv hstop hhalt
  | stopped k hadv hstop hwithin hwaiting hsignal =>
    exact runLoop_of_stop hc hadv hwithin hstop hwaiting hsignal
  | halted k hadv hstop hwithin hend => exact runLoop_of_halted hc hadv hwithin hstop hend
  | faulted k hadv hstop hwithin fault hend => exact runLoop_of_error hc hadv hwithin hstop hend

/-- Of the four ways to end only one reports a fault, so a run that does has made one request behind
the instructions that it retired. -/
theorem exists_course_of_error (hc : c.machine.runState = .running) {fault : Fault}
    (h : (c.runLoop sink stop limit).result = .error fault) :
    ∃ k, Course sink stop limit c (k + 1) (.error fault) := by
  obtain ⟨n, result, hcourse⟩ := exists_course sink stop limit hc
  rw [hcourse.runLoop_eq hc] at h
  obtain rfl : result = .error fault := h
  cases hcourse with
  | faulted k hadv hstop hwithin _ hend => exact ⟨k, .faulted k hadv hstop hwithin fault hend⟩

/-- Every request of a run is made of a running machine. -/
theorem Course.runs (hc : c.machine.runState = .running)
    (h : Course sink stop limit c n result) : c.Runs sink n := by
  cases h with
  | limit k hadv => exact hadv.runs
  | stopped k hadv => exact hadv.runs
  | halted k hadv => exact hadv.runs_succ hc
  | faulted k hadv => exact hadv.runs_succ hc

/-- The run state that a run leaves, by what it reports: a run that stops at its limit or at its
signal leaves a running machine. -/
def reportedState : Except Fault RunOutcome → RunState
  | .error fault => .faulted fault
  | .ok ⟨_, .halted⟩ => .halted
  | .ok ⟨_, .stepLimit⟩ => .running
  | .ok ⟨_, .interrupted⟩ => .running

/-- A fault is latched only by a run that reports it. -/
theorem eq_error_of_reportedState {result : Except Fault RunOutcome} {fault : Fault}
    (h : reportedState result = .faulted fault) : result = .error fault := by
  -- no outcome is reported as a fault
  cases result with
  | error raised =>
    obtain rfl := RunState.faulted.inj h
    rfl
  | ok outcome =>
    obtain ⟨steps, stopped⟩ := outcome
    cases stopped with
    | halted => cases h
    | stepLimit => cases h
    | interrupted => cases h

/-- **A run reports how it left the machine.** -/
theorem runState_runLoop (sink : Sink σ) (stop : σ → Bool) (limit : Option Nat) (c : Stage σ) :
    (c.runLoop sink stop limit).machine.runState =
      reportedState (c.runLoop sink stop limit).result := by
  cases hm : c.machine.runState with
  -- a terminal machine is left as it is
  | halted => rw [runLoop, Machine.runLoop_of_halted hm, hm]; rfl
  | faulted fault => rw [runLoop, Machine.runLoop_of_faulted hm, hm]; rfl
  | running =>
    cases run_cases sink stop limit hm with
    | limit k hadv _ _ _ hanswer => rw [hanswer]; exact runState_after hm hadv
    | stopped k hadv _ _ _ _ hanswer => rw [hanswer]; exact runState_after hm hadv
    | halted k hadv _ _ hend hanswer =>
      rw [hanswer, answer, after_succ', next_of_halted (runState_after hm hadv) hend]
      rfl
    | faulted k hadv _ _ fault hend hanswer =>
      rw [hanswer, answer, after_succ', machine_next_of_error (runState_after hm hadv) hend]
      rfl

/-! ### What runs keep -/

/-- A run of a machine that has stopped leaves everything as it is. -/
theorem runLoop_of_terminal (h : c.machine.runState ≠ .running) :
    (c.runLoop sink stop limit).stage = c := by
  cases hm : c.machine.runState with
  | running => exact absurd hm h
  | halted => rw [runLoop, Machine.runLoop_of_halted hm]; rfl
  | faulted fault => rw [runLoop, Machine.runLoop_of_faulted hm]; rfl

/-- **A run is some number of step requests**, whatever state it starts from. -/
theorem exists_runLoop_eq_after (sink : Sink σ) (stop : σ → Bool) (limit : Option Nat)
    (c : Stage σ) : ∃ n, (c.runLoop sink stop limit).stage = c.after sink n := by
  by_cases hm : c.machine.runState = .running
  · obtain ⟨n, result, hcourse⟩ := exists_course sink stop limit hm
    exact ⟨n, by rw [hcourse.runLoop_eq hm]; rfl⟩
  · exact ⟨0, runLoop_of_terminal hm⟩

/-- What every step request keeps, a run keeps. -/
theorem runLoop_induction {P : Stage σ → Prop} (hP : P c) (hnext : ∀ d, P d → P (d.next sink)) :
    P (c.runLoop sink stop limit).stage := by
  obtain ⟨n, hn⟩ := exists_runLoop_eq_after sink stop limit c
  rw [hn]
  clear hn
  induction n with
  | zero => exact hP
  | succ n ih =>
    rw [after_succ']
    exact hnext _ ih

/-- No run changes the memory or the configuration. -/
theorem kept_runLoop (sink : Sink σ) (stop : σ → Bool) (limit : Option Nat) (c : Stage σ) :
    (c.runLoop sink stop limit).machine.memory = c.machine.memory ∧
      (c.runLoop sink stop limit).machine.config = c.machine.config := by
  obtain ⟨n, hn⟩ := exists_runLoop_eq_after sink stop limit c
  have hmachine : (c.runLoop sink stop limit).machine = (c.after sink n).machine :=
    congrArg Stage.machine hn
  rw [hmachine]
  exact ⟨memory_after n, config_after n⟩

/-! ### Runs that are alike -/

/-- A run goes at least as far as a stretch that neither its limit nor its stop signal cuts. -/
theorem Course.le_of_advances (h : Course sink stop limit c n result) {k : Nat}
    (hadv : c.Advances sink k) (hwithin : ∀ l ∈ limit, k ≤ l) (hstop : c.Unstopped sink stop k) :
    k ≤ n := by
  by_contra hlt
  have hn : n < k := Nat.lt_of_not_le hlt
  cases h with
  | limit _ _ _ hused _ =>
    have hle := hwithin n hused
    omega
  | stopped _ _ _ _ _ hsignal =>
    rw [hstop n hn] at hsignal
    cases hsignal
  -- the last request retires no instruction, so the stretch ends before it
  | halted m _ _ _ hend => exact stuck_of_halted hend (hadv m (by omega))
  | faulted m _ _ _ fault hend => exact stuck_of_error hend (hadv m (by omega))

/-- Two executions that look the same to the run loop: their first `n` requests are answered alike,
and up to there the two agree on the look-ahead and on the stop signal. -/
structure Alike (sink : Sink σ) (stop : σ → Bool) (c : Stage σ) (sink' : Sink τ)
    (stop' : τ → Bool) (d : Stage τ) (n : Nat) : Prop where
  result_eq : ∀ i < n, ((d.after sink' i).step sink').result = ((c.after sink i).step sink).result
  atHalt_eq : ∀ i ≤ n, (d.after sink' i).machine.atHalt = (c.after sink i).machine.atHalt
  stop_eq : ∀ i ≤ n, stop' (d.after sink' i).sink = stop (c.after sink i).sink

/-- A stage that goes alike retires as many instructions. -/
theorem Alike.advances (h : Alike sink stop c sink' stop' d n) {k : Nat} (hk : k ≤ n)
    (hadv : c.Advances sink k) : d.Advances sink' k := by
  intro i hi
  obtain ⟨pc, length, hr⟩ := hadv i hi
  exact ⟨pc, length, by rw [h.result_eq i (Nat.lt_of_lt_of_le hi hk), hr]⟩

/-- A signal that is not raised on one side is not raised on the other one. -/
theorem Alike.unstopped (h : Alike sink stop c sink' stop' d n) {k : Nat} (hk : k ≤ n)
    (hstop : c.Unstopped sink stop k) : d.Unstopped sink' stop' k := by
  intro i hi
  rw [h.stop_eq i (Nat.le_trans (Nat.le_of_lt hi) hk), hstop i hi]

/-- **Alike executions have the same course.** -/
theorem Course.transfer (h : Course sink stop limit c n result)
    (halike : Alike sink stop c sink' stop' d n) : Course sink' stop' limit d n result := by
  -- every ending reads the stages up to its own, and those are alike
  cases h with
  | limit k hadv hstop hused hhalt =>
    refine .limit n (halike.advances le_rfl hadv) (halike.unstopped le_rfl hstop) hused ?_
    rw [halike.atHalt_eq n le_rfl, hhalt]
  | stopped k hadv hstop hwithin hwaiting hsignal =>
    refine .stopped n (halike.advances le_rfl hadv) (halike.unstopped le_rfl hstop) hwithin ?_ ?_
    · rw [halike.atHalt_eq n le_rfl]
      exact hwaiting
    · rw [halike.stop_eq n le_rfl, hsignal]
  | halted k hadv hstop hwithin hend =>
    refine .halted k (halike.advances (Nat.le_succ k) hadv) (halike.unstopped le_rfl hstop)
      hwithin ?_
    rw [halike.result_eq k (Nat.lt_succ_self k), hend]
  | faulted k hadv hstop hwithin fault hend =>
    refine .faulted k (halike.advances (Nat.le_succ k) hadv) (halike.unstopped le_rfl hstop)
      hwithin fault ?_
    rw [halike.result_eq k (Nat.lt_succ_self k), hend]

end Stage

end LS8
