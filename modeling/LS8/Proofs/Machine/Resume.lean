import Mathlib.Algebra.GroupWithZero.Nat
import LS8.Proofs.Machine.Course

/-!
# Runs in parts

A run that ends at its limit, or at a stop signal, has done nothing of what comes next, and the
machine is still running. So another run takes up the execution where it was left, and together the
two do what one run does. Neither end repeats an instruction or leaves one out.

* Limits add up (`Stage.runWithLimit_composes`). The first of two runs may end anywhere: between two
  ordinary instructions, in front of an instruction that is going to fault, or at a halt instruction,
  which it executes even with nothing left of its limit. In each case the second run finds what the
  single run finds there.
* An interruption comes between two instructions (`Stage.runUntil_interrupts`). What ends a run at a
  check is decided in a fixed order: a terminal run state, a limit that is used up in front of
  anything but a halt instruction, the stop signal, and only then the next instruction.
-/

namespace LS8

variable {σ : Type} {sink : Sink σ} {stop : σ → Bool} {limit : Option Nat}

namespace Stage

variable {c : Stage σ} {k : Nat}

/-! ### Limits one after another -/

/-- A limit leaves what it is more than the instructions that were retired. -/
theorem runWithLimit_add_of_advances {a : Nat} (hadv : c.Advances sink a) (b : Nat) :
    c.runWithLimit sink (a + b) =
      ((c.after sink a).runWithLimit sink b).afterSteps a (c.events sink a) := by
  have hwithin : ∀ n ∈ some (a + b), a ≤ n := by simp
  have hleft : (some (a + b)).map (· - a) = some b := by simp
  have hwhole : c.runWithLimit sink (a + b) = _ :=
    runLoop_of_advances hadv hwithin (unstopped_never a)
  rw [hwhole, hleft]
  rfl

/-- A run that halts leaves nothing to do for the next one. -/
theorem runWithLimit_add_of_halts {a : Nat} (hc : c.machine.runState = .running)
    (hadv : c.Advances sink k) (hk : k ≤ a)
    (hend : ((c.after sink k).step sink).result = .ok .halted) (b : Nat) :
    c.runWithLimit sink (a + b) =
      ((c.after sink (k + 1)).runWithLimit sink b).afterSteps k (c.events sink (k + 1)) := by
  have hhalted : (c.after sink (k + 1)).machine.runState = .halted := by
    rw [after_succ', next_of_halted (runState_after hc hadv) hend]
  -- the second run finds a halted machine and retires nothing
  have hsecond : (c.after sink (k + 1)).runWithLimit sink b = _ :=
    Machine.runLoop_of_halted hhalted
  have hwithin : ∀ n ∈ some (a + b), k ≤ n := by simpa using Nat.le_add_right_of_le hk
  have hwhole : c.runWithLimit sink (a + b) = _ :=
    runLoop_of_halted hc hadv hwithin (unstopped_never (k + 1)) hend
  rw [hwhole, hsecond]
  simp [answer, Response.afterSteps, Except.map]

/-- What is left of the sum of two limits behind a run under the first one is the second one. -/
theorem runWithLimit_add_of_ok {a : Nat} {outcome : RunOutcome}
    (h : (c.runWithLimit sink a).result = .ok outcome) (b : Nat) :
    c.runWithLimit sink (a + b) =
      ((c.runWithLimit sink a).stage.runWithLimit sink b).afterSteps outcome.steps
        (c.runWithLimit sink a).events := by
  cases hm : c.machine.runState with
  | faulted fault =>
    have hfirst : c.runWithLimit sink a = _ := Machine.runLoop_of_faulted hm
    rw [hfirst] at h
    cases h
  | halted =>
    -- both runs and the single one find a halted machine
    have hrun : ∀ n, c.runWithLimit sink n = _ := fun n => Machine.runLoop_of_halted hm
    rw [hrun a] at h ⊢
    obtain rfl := Except.ok.inj h
    rw [Response.afterSteps_zero, hrun (a + b)]
    exact (hrun b).symm
  | running =>
    cases run_cases sink (fun _ => false) (some a) hm with
    | stopped k _ _ _ _ hsignal _ => cases hsignal
    | faulted k _ _ _ fault _ hanswer =>
      have hfirst : c.runWithLimit sink a = _ := hanswer
      rw [hfirst] at h
      cases h
    | limit k hadv _ hused _ hanswer =>
      obtain rfl := Option.some.inj hused
      have hfirst : c.runWithLimit sink a = _ := hanswer
      rw [hfirst] at h ⊢
      obtain rfl := Except.ok.inj h
      exact runWithLimit_add_of_advances hadv b
    | halted k hadv _ hwithin hend hanswer =>
      have hfirst : c.runWithLimit sink a = _ := hanswer
      rw [hfirst] at h ⊢
      obtain rfl := Except.ok.inj h
      exact runWithLimit_add_of_halts hm hadv (hwithin a rfl) hend b

/-- A run under a limit that faults does not get to the end of the limit, so a larger one changes
nothing. The fault stays latched for the run that follows. -/
theorem runWithLimit_add_of_error {a : Nat} {fault : Fault}
    (h : (c.runWithLimit sink a).result = .error fault) (b : Nat) :
    c.runWithLimit sink (a + b) = c.runWithLimit sink a ∧
      (c.runWithLimit sink a).stage.runWithLimit sink b =
        ⟨.error fault, (c.runWithLimit sink a).machine, (c.runWithLimit sink a).sink, []⟩ := by
  constructor
  · cases hm : c.machine.runState with
    | halted =>
      have hfirst : c.runWithLimit sink a = _ := Machine.runLoop_of_halted hm
      rw [hfirst] at h
      cases h
    | faulted fault =>
      -- a latched fault is reported again, whatever the limit is
      have hrun : ∀ n, c.runWithLimit sink n = _ := fun n => Machine.runLoop_of_faulted hm
      rw [hrun a, hrun (a + b)]
    | running =>
      obtain ⟨k, hcourse⟩ := exists_course_of_error hm h
      have hfirst : c.runWithLimit sink a = _ := hcourse.runLoop_eq hm
      cases hcourse with
      | faulted _ hadv hstop hwithin _ hend =>
        have hwithin' : ∀ n ∈ some (a + b), k < n := by
          simpa using Nat.lt_add_right b (hwithin a rfl)
        rw [hfirst]
        exact runLoop_of_error hm hadv hwithin' hstop hend
  · have hlatched : (c.runWithLimit sink a).machine.runState = .faulted fault := by
      have hstate := runState_runLoop sink (fun _ => false) (some a) c
      change (c.runWithLimit sink a).machine.runState =
        reportedState (c.runWithLimit sink a).result at hstate
      rw [hstate, h]
      rfl
    exact Machine.runLoop_of_faulted hlatched

/-- The answers to runs under limits that are asked for one after another. -/
def limitedRuns (sink : Sink σ) : Stage σ → List Nat → List (Response σ RunOutcome)
  | _, [] => []
  | c, n :: limits =>
    c.runWithLimit sink n :: limitedRuns sink (c.runWithLimit sink n).stage limits

/-- What runs under limits, asked for one after another, leave. -/
def afterLimits (sink : Sink σ) (c : Stage σ) (limits : List Nat) : Stage σ :=
  limits.foldl (fun d n => (d.runWithLimit sink n).stage) c

/-- A single run does what the runs with the given answers do, the last of which is `last`. -/
structure Composes (answers : List (Response σ RunOutcome)) (last whole : Response σ RunOutcome) :
    Prop where
  machine_eq : whole.machine = last.machine
  sink_eq : whole.sink = last.sink
  error_eq : ∀ fault, last.result = .error fault → whole.result = .error fault
  /-- If the last run reports no fault then none of them does, and the steps add up. -/
  ok_eq : ∀ outcome, last.result = .ok outcome → ∃ outcomes : List RunOutcome,
    answers.map (·.result) = outcomes.map .ok ∧
      whole.result = .ok ⟨(outcomes.map (·.steps)).sum, outcome.stop⟩

/-- One run is composed of itself. -/
theorem composes_single (answer : Response σ RunOutcome) : Composes [answer] answer answer where
  machine_eq := rfl
  sink_eq := rfl
  error_eq := fun _ h => h
  ok_eq := by
    intro outcome h
    exact ⟨[outcome], by simp [h], by simp [h]⟩

/-- One more run in front adds its limit. -/
theorem Composes.cons {a b : Nat} {answers : List (Response σ RunOutcome)}
    {last : Response σ RunOutcome}
    (h : Composes answers last ((c.runWithLimit sink a).stage.runWithLimit sink b)) :
    Composes (c.runWithLimit sink a :: answers) last (c.runWithLimit sink (a + b)) := by
  cases hfirst : (c.runWithLimit sink a).result with
  | ok first =>
    have hwhole := runWithLimit_add_of_ok hfirst b
    refine ⟨?_, ?_, fun fault hlast => ?_, fun outcome hlast => ?_⟩
    · rw [hwhole]
      exact h.machine_eq
    · rw [hwhole]
      exact h.sink_eq
    · rw [hwhole, Response.afterSteps, h.error_eq fault hlast]
      rfl
    · obtain ⟨outcomes, hanswers, hrest⟩ := h.ok_eq outcome hlast
      refine ⟨first :: outcomes, ?_, ?_⟩
      · rw [List.map_cons, List.map_cons, hfirst, hanswers]
      · rw [hwhole, Response.afterSteps, hrest, List.map_cons, List.sum_cons]
        rfl
  | error fault =>
    -- the runs behind a fault report it again, and do nothing
    obtain ⟨hwhole, hrest⟩ := runWithLimit_add_of_error hfirst b
    rw [hwhole]
    refine ⟨?_, ?_, fun fault' hlast => ?_, fun outcome hlast => ?_⟩
    · rw [← h.machine_eq, hrest]
    · rw [← h.sink_eq, hrest]
    · have hlatched := h.error_eq fault' hlast
      rw [hrest] at hlatched
      rw [hfirst]
      exact hlatched
    · obtain ⟨outcomes, -, hok⟩ := h.ok_eq outcome hlast
      rw [hrest] at hok
      cases hok

/-- **Limits add up.** Two runs under limits, one after the other, do what one run does under the
sum of the limits, whatever state the machine is in and whatever the sink does. So do any number of
runs; the last one of them, under the limit `n`, tells how the single run ends. -/
theorem runWithLimit_composes (sink : Sink σ) (c : Stage σ) :
    (∀ a b, Composes [c.runWithLimit sink a, (c.runWithLimit sink a).stage.runWithLimit sink b]
      ((c.runWithLimit sink a).stage.runWithLimit sink b) (c.runWithLimit sink (a + b))) ∧
    ∀ limits n, Composes (c.limitedRuns sink (limits ++ [n]))
      ((c.afterLimits sink limits).runWithLimit sink n)
      (c.runWithLimit sink (limits ++ [n]).sum) := by
  refine ⟨fun a b => (composes_single _).cons, fun limits n => ?_⟩
  -- by induction on the limits: the first run is put in front of the later ones
  induction limits generalizing c with
  | nil =>
    simp only [List.nil_append, List.sum_singleton, limitedRuns, afterLimits, List.foldl_nil]
    exact composes_single _
  | cons a limits ih =>
    rw [List.cons_append, List.sum_cons, limitedRuns]
    exact (ih (c.runWithLimit sink a).stage).cons

-- the halt instruction executes under the first limit, and the second run finds a halted machine
example :
    (limitedRuns .collect ⟨{ Machine.new with memory := .ofProgram [0x47, 0, 0x01] }, []⟩
      [1, 1]).map (·.result.toOption) = [some ⟨1, .halted⟩, some ⟨0, .halted⟩] := by
  decide +kernel

/-! ### Interruption -/

/-- The limit keeps cycle `k` from executing: it is used up, and the machine is not in front of a
halt instruction. -/
def OutOfSteps (sink : Sink σ) (limit : Option Nat) (c : Stage σ) (k : Nat) : Prop :=
  (∃ n ∈ limit, n ≤ k) ∧
    (c.after sink k).machine.memory.get? (c.after sink k).machine.pc ≠ some Opcode.hlt.byte

/-- A run comes to the check before cycle `k` and has not seen the stop signal at the checks before
it: each of the first `k` cycles was let through and retired an instruction. -/
structure ComesTo (sink : Sink σ) (stop : σ → Bool) (limit : Option Nat) (c : Stage σ) (k : Nat) :
    Prop where
  retired : c.Advances sink k
  unseen : c.Unstopped sink stop k
  allowed : ∀ i < k, ¬ c.OutOfSteps sink limit i

/-- What an interruption before cycle `k` leaves, and how the execution goes on from there. -/
structure Interrupted (sink : Sink σ) (stop : σ → Bool) (c : Stage σ) (k : Nat) : Prop where
  /-- The machine and the sink are those that `k` instructions leave. -/
  stage_eq : (c.runUntil sink stop).stage = c.after sink k
  /-- Nothing of the next instruction was reported. -/
  events_eq : (c.runUntil sink stop).events = c.events sink k
  runState_eq : (c.runUntil sink stop).machine.runState = .running
  /-- Without a limit, a run from here ends as a run from the start does, and the steps add up. -/
  resumed_eq : c.machine.config.stepLimit = none →
    c.run sink = ((c.runUntil sink stop).stage.run sink).afterSteps k (c.events sink k)

/-- A limit is not used up as long as it is not reached, or a halt is next. -/
theorem not_outOfSteps_iff :
    ¬ c.OutOfSteps sink limit k ↔ ∀ n ∈ limit, n ≤ k → (c.after sink k).machine.atHalt = true := by
  -- the program stands in front of a halt instruction when its opcode is the next byte
  have hat : (c.after sink k).machine.atHalt = true ↔
      (c.after sink k).machine.memory.get? (c.after sink k).machine.pc = some Opcode.hlt.byte :=
    Machine.atHalt_iff_get?
  unfold OutOfSteps
  rw [not_and_or, ne_eq, not_not, ← hat]
  constructor
  · rintro (hnone | hhalt) n hn hle
    · exact absurd ⟨n, hn, hle⟩ hnone
    · exact hhalt
  · intro hhalt
    by_cases hsome : ∃ n ∈ limit, n ≤ k
    · obtain ⟨n, hn, hle⟩ := hsome
      exact .inr (hhalt n hn hle)
    · exact .inl hsome

/-- A run that comes to a check has not used up its limit before. -/
theorem ComesTo.within (h : c.ComesTo sink stop limit k) :
    ∀ n ∈ limit, k ≤ n := by
  intro n hn
  by_contra hlt
  have hnk : n < k := Nat.lt_of_not_le hlt
  -- cycle `n` was let through with nothing left of the limit, so it halted and retired nothing
  have hhalt := not_outOfSteps_iff.mp (h.allowed n hnk) n hn le_rfl
  rw [(h.retired n hnk).not_atHalt] at hhalt
  cases hhalt

/-- A run that comes to a raised signal is interrupted there. -/
theorem runUntil_of_signal (hc : c.machine.runState = .running)
    (h : c.ComesTo sink stop c.machine.config.stepLimit k)
    (hsignal : stop (c.after sink k).sink = true)
    (hsteps : ¬ c.OutOfSteps sink c.machine.config.stepLimit k) :
    c.runUntil sink stop = c.answer sink k (.ok ⟨k, .interrupted⟩) :=
  runLoop_of_stop hc h.retired (h.within) h.unseen
    (fun hlimit => not_outOfSteps_iff.mp hsteps k hlimit le_rfl) hsignal

/-- The limit is looked at before the signal. -/
theorem runUntil_of_outOfSteps (hc : c.machine.runState = .running)
    (h : c.ComesTo sink stop c.machine.config.stepLimit k)
    (hsteps : c.OutOfSteps sink c.machine.config.stepLimit k) :
    c.runUntil sink stop = c.answer sink k (.ok ⟨k, .stepLimit⟩) := by
  obtain ⟨⟨n, hn, hle⟩, hbyte⟩ := hsteps
  obtain rfl : n = k := Nat.le_antisymm hle (h.within n hn)
  have hhalt : (c.after sink n).machine.atHalt = false :=
    Bool.eq_false_of_not_eq_true fun hhalt => hbyte (Machine.atHalt_iff_get?.mp hhalt)
  have hlimit : c.machine.config.stepLimit = some n := hn
  rw [runUntil, Machine.runUntil, hlimit]
  exact runLoop_of_limit hc h.retired h.unseen hhalt

/-- **An interruption is a check at which the signal is seen.** -/
theorem runUntil_eq_interrupted_iff (hc : c.machine.runState = .running) :
    (c.runUntil sink stop).result = .ok ⟨k, .interrupted⟩ ↔
      c.ComesTo sink stop c.machine.config.stepLimit k ∧ stop (c.after sink k).sink = true ∧
        ¬ c.OutOfSteps sink c.machine.config.stepLimit k := by
  constructor
  · intro h
    obtain ⟨n, result, hcourse⟩ := exists_course sink stop c.machine.config.stepLimit hc
    have hrun : c.runUntil sink stop = _ := hcourse.runLoop_eq hc
    rw [hrun] at h
    -- of the four ways to end only one reports an interruption
    cases hcourse with
    | limit n => cases h
    | halted n => cases h
    | faulted n => cases h
    | stopped n hadv hstop hwithin hwaiting hsignal =>
      cases h
      refine ⟨⟨hadv, hstop, ?_⟩, hsignal, ?_⟩
      · rintro i hi ⟨⟨n, hn, hle⟩, -⟩
        have hge := hwithin n hn
        omega
      · refine not_outOfSteps_iff.mpr fun n hn hle => hwaiting ?_
        obtain rfl : n = k := Nat.le_antisymm hle (hwithin n hn)
        exact hn
  · rintro ⟨hcomes, hsignal, hsteps⟩
    rw [runUntil_of_signal hc hcomes hsignal hsteps]
    rfl

/-- **An interrupted run can be resumed**, and its steps add up. -/
theorem interrupted_of_comesTo (hc : c.machine.runState = .running)
    (h : c.ComesTo sink stop c.machine.config.stepLimit k)
    (hsignal : stop (c.after sink k).sink = true)
    (hsteps : ¬ c.OutOfSteps sink c.machine.config.stepLimit k) : Interrupted sink stop c k := by
  have hanswer := runUntil_of_signal hc h hsignal hsteps
  have hstage : (c.runUntil sink stop).stage = c.after sink k := by
    rw [hanswer]
    rfl
  refine ⟨hstage, ?_, ?_, fun hnone => ?_⟩
  · rw [hanswer]
    rfl
  · rw [hanswer]
    exact runState_after hc h.retired
  · -- the instructions before the interruption are those that the whole run starts with
    have hwithin : ∀ n ∈ (none : Option Nat), k ≤ n := by
      intro n hn
      cases hn
    have hwhole := runLoop_of_advances h.retired hwithin (unstopped_never k)
    have hrun : ∀ d : Stage σ, d.machine.config.stepLimit = none →
        d.run sink = d.runLoop sink (fun _ => false) none := by
      intro d hd
      rw [run, Machine.run, hd]
      rfl
    have hrest : (c.after sink k).machine.config.stepLimit = none := by
      rw [config_after, hnone]
    rw [hstage, hrun c hnone, hrun _ hrest, hwhole]
    rfl

/-- **Interrupting loses nothing.** A run is interrupted before cycle `k` if and only if it comes to
the check there, sees the signal, and is not out of steps. It leaves what `k` instructions leave, and
a later run goes on from there. Being out of steps comes before the signal, and the signal before a
halt instruction; a terminal machine does not look at the signal at all. -/
theorem runUntil_interrupts (sink : Sink σ) (stop : σ → Bool) (c : Stage σ)
    (hc : c.machine.runState = .running) :
    (∀ k, (c.runUntil sink stop).result = .ok ⟨k, .interrupted⟩ ↔
      c.ComesTo sink stop c.machine.config.stepLimit k ∧ stop (c.after sink k).sink = true ∧
        ¬ c.OutOfSteps sink c.machine.config.stepLimit k) ∧
    (∀ k, (c.runUntil sink stop).result = .ok ⟨k, .interrupted⟩ → Interrupted sink stop c k) ∧
    (∀ k, c.ComesTo sink stop c.machine.config.stepLimit k →
      (c.OutOfSteps sink c.machine.config.stepLimit k →
        c.runUntil sink stop = c.answer sink k (.ok ⟨k, .stepLimit⟩)) ∧
      (stop (c.after sink k).sink = true → ((c.after sink k).step sink).result = .ok .halted →
        c.runUntil sink stop = c.answer sink k (.ok ⟨k, .interrupted⟩))) ∧
    ∀ d : Stage σ,
      (d.machine.runState = .halted →
        d.runUntil sink stop = ⟨.ok ⟨0, .halted⟩, d.machine, d.sink, []⟩) ∧
      ∀ fault, d.machine.runState = .faulted fault →
        d.runUntil sink stop = ⟨.error fault, d.machine, d.sink, []⟩ := by
  refine ⟨fun k => runUntil_eq_interrupted_iff hc, fun k h => ?_, fun k hcomes => ⟨?_, ?_⟩,
    fun d => ⟨?_, ?_⟩⟩
  · obtain ⟨hcomes, hsignal, hsteps⟩ := (runUntil_eq_interrupted_iff hc).mp h
    exact interrupted_of_comesTo hc hcomes hsignal hsteps
  · exact runUntil_of_outOfSteps hc hcomes
  · intro hsignal hhalts
    -- in front of a halt instruction a run is never out of steps
    have hhalt := (atHalt_iff sink (runState_after hc hcomes.retired)).mpr hhalts
    have hsteps : ¬ c.OutOfSteps sink c.machine.config.stepLimit k :=
      not_outOfSteps_iff.mpr fun _ _ _ => hhalt
    exact runUntil_of_signal hc hcomes hsignal hsteps
  · exact Machine.runLoop_of_halted
  · intro fault
    exact Machine.runLoop_of_faulted

/-- The stop signal of a host that wants one value. -/
def hasValue (taken : List UInt8) : Bool :=
  !taken.isEmpty

/-- A machine that prints twice and halts. -/
def printsAndHalts : Stage (List UInt8) :=
  ⟨{ Machine.new with memory := .ofProgram [0x47, 0, 0x47, 1, 0x01] }, []⟩

/-- The signal is raised by the first value, in front of the halt. -/
theorem runUntil_interrupts_printsAndHalts :
    printsAndHalts.machine.runState = .running ∧
      (printsAndHalts.runUntil .collect hasValue).result = .ok ⟨1, .interrupted⟩ ∧
      Interrupted .collect hasValue printsAndHalts 1 := by
  have hrun : (printsAndHalts.runUntil .collect hasValue).result = .ok ⟨1, .interrupted⟩ := by
    decide +kernel
  exact ⟨rfl, hrun, (runUntil_interrupts .collect hasValue printsAndHalts rfl).2.1 1 hrun⟩

end Stage

end LS8
