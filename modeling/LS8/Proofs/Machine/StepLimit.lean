import LS8.Proofs.Machine.RunLoop

/-!
# Step limits

A step limit cuts a run short and does nothing else. The reference is the sequence of step requests
without any limit: it retires some number `k` of instructions and then halts or faults. A limit below
`k` stops the run behind as many instructions, a limit above `k` is not felt.

The two ends differ at the limit `k` itself (`Stage.runWithLimit_of_halted`,
`Stage.runWithLimit_of_error`). Halting is not a retired instruction, so the halt instruction still
executes; a faulting instruction is one that the limit keeps from being attempted.
-/

namespace LS8

namespace Stage

variable {σ : Type} {sink : Sink σ} {c : Stage σ}

/-- Below the number of retired instructions, a limit is what ends a run. -/
theorem runWithLimit_of_lt {k n : Nat} (h : c.Advances sink k) (hn : n < k) :
    c.runWithLimit sink n = c.answer sink n (.ok ⟨n, .stepLimit⟩) := by
  have hc : c.machine.runState = .running := (h 0 (Nat.zero_lt_of_lt hn)).runState_eq
  exact runLoop_of_limit hc (h.mono (Nat.le_of_lt hn)) (unstopped_never n) (h n hn).not_atHalt

/-- In front of a halt instruction after `k` instructions, the limit decides up to `k - 1`, and from
`k` on the machine halts. -/
theorem runWithLimit_of_halted {k : Nat} (hc : c.machine.runState = .running)
    (h : c.Advances sink k) (hend : ((c.after sink k).step sink).result = .ok .halted) (n : Nat) :
    c.runWithLimit sink n = if n < k then c.answer sink n (.ok ⟨n, .stepLimit⟩)
      else c.answer sink (k + 1) (.ok ⟨k, .halted⟩) := by
  by_cases hn : n < k
  · rw [if_pos hn]
    exact runWithLimit_of_lt h hn
  · rw [if_neg hn]
    -- the halt instruction executes even where the limit is `k` itself
    have hwithin : ∀ n' ∈ some n, k ≤ n' := by simpa using hn
    exact runLoop_of_halted hc h hwithin (unstopped_never (k + 1)) hend

/-- In front of a fault after `k` instructions, the limit decides up to `k`: the faulting step is
one more. -/
theorem runWithLimit_of_error {k : Nat} (hc : c.machine.runState = .running)
    (h : c.Advances sink k) {fault : Fault}
    (hend : ((c.after sink k).step sink).result = .error fault) (n : Nat) :
    c.runWithLimit sink n = if n ≤ k then c.answer sink n (.ok ⟨n, .stepLimit⟩)
      else c.answer sink (k + 1) (.error fault) := by
  by_cases hn : n ≤ k
  · rw [if_pos hn]
    rcases Nat.lt_or_eq_of_le hn with hn | rfl
    · exact runWithLimit_of_lt h hn
    · -- at the limit itself the look-ahead sees an instruction that is not the halt instruction
      have hhalt : (c.after sink n).machine.atHalt = false := by
        refine Bool.eq_false_of_not_eq_true fun hh => ?_
        rw [(atHalt_iff sink (runState_after hc h)).mp hh] at hend
        cases hend
      exact runLoop_of_limit hc h (unstopped_never n) hhalt
  · rw [if_neg hn]
    have hwithin : ∀ n' ∈ some n, k < n' := by simpa using hn
    exact runLoop_of_error hc h hwithin (unstopped_never (k + 1)) hend

/-- The step requests from a running stage retire `k` instructions and then halt the machine, and
what follows for the runs under a limit and under none. -/
structure HaltsBehind (sink : Sink σ) (c : Stage σ) (k : Nat) : Prop where
  advances : c.Advances sink k
  halts : ((c.after sink k).step sink).result = .ok .halted
  /-- Halting changes the run state and nothing else. -/
  after_eq : c.after sink (k + 1) =
    ⟨{ (c.after sink k).machine with runState := .halted }, (c.after sink k).sink⟩
  limited_eq : ∀ n, c.runWithLimit sink n =
    if n < k then c.answer sink n (.ok ⟨n, .stepLimit⟩)
    else c.answer sink (k + 1) (.ok ⟨k, .halted⟩)
  unlimited_eq : c.machine.config.stepLimit = none →
    c.run sink = c.answer sink (k + 1) (.ok ⟨k, .halted⟩)

/-- The step requests from a running stage retire `k` instructions and then fault, and what follows
for the runs under a limit and under none. -/
structure FaultsBehind (sink : Sink σ) (c : Stage σ) (k : Nat) (fault : Fault) : Prop where
  advances : c.Advances sink k
  faults : ((c.after sink k).step sink).result = .error fault
  /-- The fault is latched and nothing else of the machine changes. -/
  machine_after_eq : (c.after sink (k + 1)).machine =
    { (c.after sink k).machine with runState := .faulted fault }
  limited_eq : ∀ n, c.runWithLimit sink n =
    if n ≤ k then c.answer sink n (.ok ⟨n, .stepLimit⟩)
    else c.answer sink (k + 1) (.error fault)
  unlimited_eq : c.machine.config.stepLimit = none →
    c.run sink = c.answer sink (k + 1) (.error fault)

/-- The step requests from a running stage come to one of the two ends. -/
theorem halts_or_faults (sink : Sink σ) (hc : c.machine.runState = .running) :
    ∃ k, HaltsBehind sink c k ∨ ∃ fault, FaultsBehind sink c k fault := by
  obtain ⟨k, hadv, hstuck⟩ := exists_advances sink c
  have hrun := runState_after hc hadv
  refine ⟨k, ?_⟩
  -- the execution comes to a request that retires nothing, and this is where a run ends
  rcases halted_or_error_of_stuck hstuck with hend | ⟨fault, hend⟩
  · refine .inl ⟨hadv, hend, ?_, runWithLimit_of_halted hc hadv hend, fun hnone => ?_⟩
    · rw [after_succ', next_of_halted hrun hend]
    · refine runLoop_of_halted hc hadv ?_ (unstopped_never (k + 1)) hend
      simp [hnone]
  · refine .inr ⟨fault, hadv, hend, ?_, runWithLimit_of_error hc hadv hend, fun hnone => ?_⟩
    · rw [after_succ', machine_next_of_error hrun hend]
    · refine runLoop_of_error hc hadv ?_ (unstopped_never (k + 1)) hend
      simp [hnone]

/-- **A step limit truncates a run and changes nothing else.** The step requests from a running
stage retire some number `k` of instructions, and the next one either halts the machine or faults.
This fixes the answer to every limited run: what the first `n` requests leave if the limit `n` is
small, and otherwise what the `k + 1` requests leave that end the execution. The two ends differ at
`n = k` only. A terminal machine answers every run at once and is not changed by it, and the
configured limit acts like a given one. Since the sink is arbitrary, equal sink states mean that it
was offered the same values. -/
theorem runWithLimit_truncates (sink : Sink σ) (c : Stage σ) :
    (c.machine.runState = .running →
      ∃ k, (∀ i ≤ k, (c.after sink i).machine.runState = .running) ∧
        (HaltsBehind sink c k ∨ ∃ fault, FaultsBehind sink c k fault)) ∧
    (c.machine.runState = .halted →
      (∀ n, c.runWithLimit sink n = ⟨.ok ⟨0, .halted⟩, c.machine, c.sink, []⟩) ∧
        c.run sink = ⟨.ok ⟨0, .halted⟩, c.machine, c.sink, []⟩) ∧
    (∀ fault, c.machine.runState = .faulted fault →
      (∀ n, c.runWithLimit sink n = ⟨.error fault, c.machine, c.sink, []⟩) ∧
        c.run sink = ⟨.error fault, c.machine, c.sink, []⟩) ∧
    ∀ n, c.machine.config.stepLimit = some n → c.run sink = c.runWithLimit sink n := by
  refine ⟨fun hc => ?_, fun hc => ⟨fun n => ?_, ?_⟩, fun fault hc => ⟨fun n => ?_, ?_⟩,
    fun n hn => ?_⟩
  -- either end comes behind a stretch of retired instructions, along which the machine runs
  · obtain ⟨k, hend⟩ := halts_or_faults sink hc
    refine ⟨k, fun i hi => ?_, hend⟩
    have hadv : c.Advances sink k := by
      rcases hend with hend | ⟨fault, hend⟩
      · exact hend.advances
      · exact hend.advances
    exact hadv.runs_succ hc i (Nat.lt_succ_of_le hi)
  · exact Machine.runLoop_of_halted hc
  · exact Machine.runLoop_of_halted hc
  · exact Machine.runLoop_of_faulted hc
  · exact Machine.runLoop_of_faulted hc
  · rw [run, Machine.run, hn]
    rfl

/-- A machine that prints and then halts, and that may execute one instruction. -/
def printsOnce : Machine :=
  { Machine.new with memory := .ofProgram [0x47, 0, 0x01], config := { stepLimit := some 1 } }

/-- The configured limit stops nothing here, because the halt comes right behind the only print. -/
theorem runWithLimit_truncates_printsOnce :
    printsOnce.runState = .running ∧ printsOnce.config.stepLimit = some 1 ∧
    (∃ k, (∀ i ≤ k, ((⟨printsOnce, []⟩ : Stage _).after .collect i).machine.runState = .running) ∧
      (HaltsBehind .collect ⟨printsOnce, []⟩ k ∨
        ∃ fault, FaultsBehind .collect ⟨printsOnce, []⟩ k fault)) ∧
    (⟨printsOnce, []⟩ : Stage _).run .collect =
      (⟨printsOnce, []⟩ : Stage _).runWithLimit .collect 1 ∧
    (⟨{ printsOnce with runState := .halted }, []⟩ : Stage _).runWithLimit .collect 0 =
      ⟨.ok ⟨0, .halted⟩, { printsOnce with runState := .halted }, [], []⟩ ∧
    (⟨{ printsOnce with runState := .faulted (.outputFailed 0) }, []⟩ : Stage _).run .collect =
      ⟨.error (.outputFailed 0), { printsOnce with runState := .faulted (.outputFailed 0) }, [],
        []⟩ := by
  obtain ⟨hrunning, -, -, hlimited⟩ := runWithLimit_truncates .collect ⟨printsOnce, []⟩
  obtain ⟨-, hhalted, -, -⟩ :=
    runWithLimit_truncates .collect ⟨{ printsOnce with runState := .halted }, []⟩
  obtain ⟨-, -, hfaulted, -⟩ := runWithLimit_truncates .collect
    ⟨{ printsOnce with runState := .faulted (.outputFailed 0) }, []⟩
  exact ⟨rfl, rfl, hrunning rfl, hlimited 1 rfl, (hhalted rfl).1 0, (hfaulted _ rfl).2⟩

-- at the limit itself a halt instruction still executes, and a fault is not attempted
example :
    ({ Machine.new with memory := .ofProgram [0x47, 0, 0x01] }.runWithLimit .collect 1
      []).result.toOption = some ⟨1, .halted⟩ ∧
    ({ Machine.new with memory := .ofProgram [0x47, 0, 0xFF] }.runWithLimit .collect 1
      []).result.toOption = some ⟨1, .stepLimit⟩ := by
  decide +kernel

end Stage

end LS8
