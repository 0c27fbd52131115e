import Mathlib.Data.Nat.Find
import Mathlib.Tactic.Set
import Mathlib.Tactic.Push
import LS8.Proofs.Machine.Stage

/-!
# The run loop as a stretch of steps

The run loop retires instructions as long as nothing ends it, so its answer is that of the stage
behind the stretch, put behind the stretch (`Stage.runLoop_of_advances`). What remains are the four
ways to answer at a stage without retiring anything: the limit is used up, the stop signal is seen,
the machine halts, or it faults.

`Stage.runLoop_of_limit`, `Stage.runLoop_of_halted` and `Stage.runLoop_of_error` compute the answer
from a stretch that is known. `Stage.run_cases` goes the other way: every run of a running machine
is one of the four. Between them no later proof unfolds `Machine.runLoop`.
-/

namespace LS8

variable {σ : Type} {sink : Sink σ} {stop : σ → Bool} {limit : Option Nat}

/-- The answer of a run that first retires `k` instructions, reporting `events`, and then goes on to
the given answer. -/
def Response.afterSteps (k : Nat) (events : List TraceEvent) (rest : Response σ RunOutcome) :
    Response σ RunOutcome :=
  { rest with
    result := rest.result.map fun outcome => { outcome with steps := k + outcome.steps }
    events := events ++ rest.events }

theorem Response.afterSteps_zero (rest : Response σ RunOutcome) : rest.afterSteps 0 [] = rest := by
  obtain ⟨result, machine, sink, events⟩ := rest
  cases result with
  | error fault => rfl
  | ok outcome => simp [afterSteps, Except.map]

/-- One more retirement in front is one more step and its events. -/
theorem Response.afterRetired_afterSteps (k : Nat) (first events : List TraceEvent)
    (rest : Response σ RunOutcome) :
    (rest.afterSteps k events).afterRetired first = rest.afterSteps (k + 1) (first ++ events) := by
  obtain ⟨result, machine, sink, later⟩ := rest
  cases result with
  | error fault => simp [afterSteps, afterRetired, Except.map]
  | ok outcome =>
    simp only [afterSteps, afterRetired, Except.map, RunOutcome.succ, List.append_assoc]
    congr 3
    omega

namespace Machine

variable {m : Machine} {s : σ}

/-! ### One turn of the loop -/

theorem runLoop_of_halted (hm : m.runState = .halted) :
    m.runLoop sink stop limit s = ⟨.ok ⟨0, .halted⟩, m, s, []⟩ := by
  unfold runLoop
  rw [hm]

/-- A machine that has faulted reports its fault at once. -/
theorem runLoop_of_faulted {fault : Fault} (hm : m.runState = .faulted fault) :
    m.runLoop sink stop limit s = ⟨.error fault, m, s, []⟩ := by
  unfold runLoop
  rw [hm]

/-- A running machine that is not kept from it makes a step and looks at its answer. -/
theorem runLoop_of_running (hm : m.runState = .running)
    (hlimit : ¬ (limit = some 0 ∧ ¬ m.atHalt = true)) (hstop : stop s = false) :
    m.runLoop sink stop limit s = match (m.step sink s).result with
      | .error fault =>
        ⟨.error fault, (m.step sink s).machine, (m.step sink s).sink, (m.step sink s).events⟩
      | .ok .halted =>
        ⟨.ok ⟨0, .halted⟩, (m.step sink s).machine, (m.step sink s).sink, (m.step sink s).events⟩
      | .ok (.retired _ _) =>
        (runLoop sink stop (limit.map (· - 1)) (m.step sink s).machine
          (m.step sink s).sink).afterRetired (m.step sink s).events := by
  rw [runLoop, hm]
  simp only
  rw [if_neg hlimit, hstop]
  simp only [Bool.false_eq_true, if_false]
  -- neither the limit nor the signal applies, so the answer is the one of the step
  split
  · next h => rw [h]
  · next h => rw [h]
  · next h => rw [h]

end Machine

namespace Stage

variable {c : Stage σ}

/-- The run loop at a stage. -/
def runLoop (sink : Sink σ) (stop : σ → Bool) (limit : Option Nat) (c : Stage σ) :
    Response σ RunOutcome :=
  c.machine.runLoop sink stop limit c.sink

/-- A run under the configured step limit. -/
def run (sink : Sink σ) (c : Stage σ) : Response σ RunOutcome :=
  c.machine.run sink c.sink

/-- A run under a given step limit. -/
def runWithLimit (sink : Sink σ) (n : Nat) (c : Stage σ) : Response σ RunOutcome :=
  c.machine.runWithLimit sink n c.sink

/-- A run under the configured step limit and a stop signal. -/
def runUntil (sink : Sink σ) (stop : σ → Bool) (c : Stage σ) : Response σ RunOutcome :=
  c.machine.runUntil sink stop c.sink

/-- A result reported after `n` step requests, with what they leave and the events they report. -/
def answer (sink : Sink σ) (c : Stage σ) (n : Nat) (result : Except Fault RunOutcome) :
    Response σ RunOutcome :=
  ⟨result, (c.after sink n).machine, (c.after sink n).sink, c.events sink n⟩

/-- A stop signal is not seen before any of the first `n` step requests. -/
def Unstopped (sink : Sink σ) (stop : σ → Bool) (c : Stage σ) (n : Nat) : Prop :=
  ∀ i < n, stop (c.after sink i).sink = false

theorem unstopped_never (n : Nat) : c.Unstopped sink (fun _ => false) n := fun _ _ => rfl

/-- **A run goes on behind a retired instruction**, with one step less of its limit. -/
theorem runLoop_of_retires (h : c.Retires sink) (hlimit : ∀ n ∈ limit, 1 ≤ n)
    (hstop : stop c.sink = false) :
    c.runLoop sink stop limit =
      ((c.next sink).runLoop sink stop (limit.map (· - 1))).afterRetired (c.step sink).events := by
  have hopen : ¬ (limit = some 0 ∧ ¬ c.machine.atHalt = true) := by
    rintro ⟨hzero, -⟩
    have hpos := hlimit 0 hzero
    omega
  -- the step is a retired instruction, so the match on its answer takes the last branch
  obtain ⟨pc, length, hr⟩ := h
  rw [runLoop, Machine.runLoop_of_running (Retires.runState_eq ⟨pc, length, hr⟩) hopen hstop]
  rw [step] at hr
  rw [hr]
  rfl

/-- **A run goes through a stretch.** If neither the limit nor the stop signal ends it before, a run
answers what it answers behind the stretch, with what is left of the limit. -/
theorem runLoop_of_advances {k : Nat} (h : c.Advances sink k) (hlimit : ∀ n ∈ limit, k ≤ n)
    (hstop : c.Unstopped sink stop k) :
    c.runLoop sink stop limit =
      ((c.after sink k).runLoop sink stop (limit.map (· - k))).afterSteps k (c.events sink k) := by
  -- the first instruction is peeled off, with one unit of the limit
  induction k generalizing c limit with
  | zero =>
    have hmap : limit.map (· - 0) = limit := by simp
    rw [after_zero, events_zero, hmap, Response.afterSteps_zero]
  | succ k ih =>
    obtain ⟨h0, h⟩ := advances_succ.mp h
    have hlimit' : ∀ n ∈ limit.map (· - 1), k ≤ n := by
      intro n hn
      obtain ⟨n', hn', rfl⟩ := Option.map_eq_some_iff.mp hn
      have hle := hlimit n' hn'
      omega
    have hmap : (limit.map (· - 1)).map (· - k) = limit.map (· - (k + 1)) := by
      rw [Option.map_map]
      congr 1
      funext n
      simp only [Function.comp_apply]
      omega
    rw [runLoop_of_retires h0 (fun n hn => le_trans (Nat.succ_pos k) (hlimit n hn))
        (hstop 0 (Nat.succ_pos k)),
      ih h hlimit' (fun i hi => hstop (i + 1) (Nat.succ_lt_succ hi)),
      Response.afterRetired_afterSteps, hmap, after_succ, events_succ]

/-! ### Where a run ends -/

/-- The limit that is left behind a stretch does not end the run there, unless it is used up and the
next instruction is not the halt instruction. -/
theorem not_exhausted {k : Nat} {m : Machine} (hlimit : ∀ n ∈ limit, k ≤ n)
    (hopen : limit = some k → m.atHalt = true) :
    ¬ (limit.map (· - k) = some 0 ∧ ¬ m.atHalt = true) := by
  rintro ⟨hzero, hhalt⟩
  obtain ⟨n, hn, hsub⟩ := Option.map_eq_some_iff.mp hzero
  have hle := hlimit n hn
  obtain rfl : n = k := by omega
  exact hhalt (hopen hn)

/-- The answer behind a stretch is that of the whole, with the steps added. -/
theorem afterSteps_answer {k n : Nat} {result : Except Fault RunOutcome} :
    ((c.after sink k).answer sink n result).afterSteps k (c.events sink k) =
      c.answer sink (k + n)
        (result.map fun outcome => { outcome with steps := k + outcome.steps }) := by
  simp only [answer, Response.afterSteps, after_add, events_add]

/-- A run whose limit is used up ends unless the next instruction is the halt instruction, which
still executes. -/
theorem runLoop_of_limit {k : Nat} (hc : c.machine.runState = .running) (h : c.Advances sink k)
    (hstop : c.Unstopped sink stop k) (hhalt : (c.after sink k).machine.atHalt = false) :
    c.runLoop sink stop (some k) = c.answer sink k (.ok ⟨k, .stepLimit⟩) := by
  -- behind the stretch nothing is left of the limit
  have hend : (c.after sink k).runLoop sink stop (some 0) =
      (c.after sink k).answer sink 0 (.ok ⟨0, .stepLimit⟩) := by
    rw [runLoop, Machine.runLoop, runState_after hc h]
    simp only
    rw [if_pos ⟨trivial, by rw [hhalt]; exact Bool.false_ne_true⟩]
    rfl
  rw [runLoop_of_advances h (fun n hn => Nat.le_of_eq (Option.some.inj hn)) hstop,
    Option.map_some, Nat.sub_self, hend, afterSteps_answer]
  rfl

/-- The stop signal is looked at after the limit and before the next step. -/
theorem runLoop_of_stop {k : Nat} (hc : c.machine.runState = .running) (h : c.Advances sink k)
    (hlimit : ∀ n ∈ limit, k ≤ n) (hstop : c.Unstopped sink stop k)
    (hopen : limit = some k → (c.after sink k).machine.atHalt = true)
    (hsignal : stop (c.after sink k).sink = true) :
    c.runLoop sink stop limit = c.answer sink k (.ok ⟨k, .interrupted⟩) := by
  -- at `k` the signal is looked at behind the limit, which is not exhausted
  have hend : (c.after sink k).runLoop sink stop (limit.map (· - k)) =
      (c.after sink k).answer sink 0 (.ok ⟨0, .interrupted⟩) := by
    rw [runLoop, Machine.runLoop, runState_after hc h]
    simp only
    rw [if_neg (not_exhausted hlimit hopen), if_pos hsignal]
    rfl
  rw [runLoop_of_advances h hlimit hstop, hend, afterSteps_answer]
  rfl

/-- A request that retires nothing, and that nothing keeps from being made, is the last one of a run,
which reports what it answers. -/
theorem runLoop_of_stuck {k : Nat} (hc : c.machine.runState = .running) (h : c.Advances sink k)
    (hlimit : ∀ n ∈ limit, k ≤ n) (hstop : c.Unstopped sink stop (k + 1))
    (hopen : limit = some k → (c.after sink k).machine.atHalt = true)
    (hstuck : ¬ (c.after sink k).Retires sink) :
    c.runLoop sink stop limit = c.answer sink (k + 1)
      (((c.after sink k).step sink).result.map fun _ => ⟨k, .halted⟩) := by
  have hlast : (c.after sink k).runLoop sink stop (limit.map (· - k)) =
      (c.after sink k).answer sink 1
        (((c.after sink k).step sink).result.map fun _ => ⟨0, .halted⟩) := by
    rw [runLoop, Machine.runLoop_of_running (runState_after hc h) (not_exhausted hlimit hopen)
      (hstop k (Nat.lt_succ_self k))]
    -- a last request halts the machine or faults, and the loop looks at nothing else
    rcases halted_or_error_of_stuck hstuck with hend | ⟨fault, hend⟩
    · rw [step] at hend ⊢
      rw [hend]
      simp [answer, after_succ, events_succ, next, step, Except.map]
    · rw [step] at hend ⊢
      rw [hend]
      simp [answer, after_succ, events_succ, next, step, Except.map]
  rw [runLoop_of_advances h hlimit (fun i hi => hstop i (Nat.lt_succ_of_lt hi)), hlast,
    afterSteps_answer]
  cases ((c.after sink k).step sink).result with
  | ok outcome => rfl
  | error fault => rfl

/-- A run that reaches a halt instruction within its limit executes it. The instruction does not
count. -/
theorem runLoop_of_halted {k : Nat} (hc : c.machine.runState = .running) (h : c.Advances sink k)
    (hlimit : ∀ n ∈ limit, k ≤ n) (hstop : c.Unstopped sink stop (k + 1))
    (hend : ((c.after sink k).step sink).result = .ok .halted) :
    c.runLoop sink stop limit = c.answer sink (k + 1) (.ok ⟨k, .halted⟩) := by
  -- the look-ahead sees the halt instruction, so the limit does not matter
  have hopen : limit = some k → (c.after sink k).machine.atHalt = true :=
    fun _ => (atHalt_iff sink (runState_after hc h)).mpr hend
  rw [runLoop_of_stuck hc h hlimit hstop hopen (stuck_of_halted hend), hend]
  rfl

/-- A run that reaches a faulting instruction before its limit is used up answers with the fault. -/
theorem runLoop_of_error {k : Nat} (hc : c.machine.runState = .running) (h : c.Advances sink k)
    (hlimit : ∀ n ∈ limit, k < n) (hstop : c.Unstopped sink stop (k + 1)) {fault : Fault}
    (hend : ((c.after sink k).step sink).result = .error fault) :
    c.runLoop sink stop limit = c.answer sink (k + 1) (.error fault) := by
  have hle : ∀ n ∈ limit, k ≤ n := fun n hn => Nat.le_of_lt (hlimit n hn)
  -- the limit is not used up yet, so the look-ahead does not matter
  have hopen : limit = some k → (c.after sink k).machine.atHalt = true :=
    fun hk => absurd (hlimit k hk) (Nat.lt_irrefl k)
  rw [runLoop_of_stuck hc h hle hstop hopen (stuck_of_error hend), hend]
  rfl

/-! ### The cases of a run -/

/-- How a run of a running machine ends: the instructions that it retires before, why it ends behind
them, and the answer that follows. -/
inductive RunCase (sink : Sink σ) (stop : σ → Bool) (limit : Option Nat) (c : Stage σ) : Prop
  | limit (k : Nat) (advances : c.Advances sink k) (unstopped : c.Unstopped sink stop k)
      (used : limit = some k) (waiting : (c.after sink k).machine.atHalt = false)
      (answer : c.runLoop sink stop limit = c.answer sink k (.ok ⟨k, .stepLimit⟩))
  | stopped (k : Nat) (advances : c.Advances sink k) (unstopped : c.Unstopped sink stop k)
      (within : ∀ n ∈ limit, k ≤ n)
      (waiting : limit = some k → (c.after sink k).machine.atHalt = true)
      (signal : stop (c.after sink k).sink = true)
      (answer : c.runLoop sink stop limit = c.answer sink k (.ok ⟨k, .interrupted⟩))
  | halted (k : Nat) (advances : c.Advances sink k) (unstopped : c.Unstopped sink stop (k + 1))
      (within : ∀ n ∈ limit, k ≤ n) (halts : ((c.after sink k).step sink).result = .ok .halted)
      (answer : c.runLoop sink stop limit = c.answer sink (k + 1) (.ok ⟨k, .halted⟩))
  | faulted (k : Nat) (advances : c.Advances sink k) (unstopped : c.Unstopped sink stop (k + 1))
      (within : ∀ n ∈ limit, k < n) (fault : Fault)
      (faults : ((c.after sink k).step sink).result = .error fault)
      (answer : c.runLoop sink stop limit = c.answer sink (k + 1) (.error fault))

open Classical in
/-- **The cases are exhaustive.** The run ends at the first stage at which no instruction is
retired, the stop signal is seen, or the limit is used up; such a stage exists because every
execution comes to an end. -/
theorem run_cases (sink : Sink σ) (stop : σ → Bool) (limit : Option Nat)
    (hc : c.machine.runState = .running) : RunCase sink stop limit c := by
  have hex : ∃ k, ¬ (c.after sink k).Retires sink ∨ stop (c.after sink k).sink = true ∨
      limit = some k := by
    obtain ⟨k, -, hk⟩ := exists_advances sink c
    exact ⟨k, .inl hk⟩
  set k := Nat.find hex with hkdef
  -- nothing ends the run before stage `k`
  have hbefore : ∀ i < k, (c.after sink i).Retires sink ∧ stop (c.after sink i).sink = false ∧
      limit ≠ some i := by
    intro i hi
    have hmin := Nat.find_min hex hi
    push Not at hmin
    exact ⟨hmin.1, Bool.eq_false_of_not_eq_true hmin.2.1, hmin.2.2⟩
  have hadv : c.Advances sink k := fun i hi => (hbefore i hi).1
  have hunstopped : c.Unstopped sink stop k := fun i hi => (hbefore i hi).2.1
  have hwithin : ∀ n ∈ limit, k ≤ n := by
    intro n hn
    by_contra hlt
    exact (hbefore n (Nat.lt_of_not_le hlt)).2.2 hn
  have hrun := runState_after hc hadv
  -- at stage `k` the limit comes first, then the signal, then the answer of the step
  by_cases hused : limit = some k ∧ (c.after sink k).machine.atHalt = false
  · obtain ⟨hlimit, hhalt⟩ := hused
    refine .limit k hadv hunstopped hlimit hhalt ?_
    rw [hlimit]
    exact runLoop_of_limit hc hadv hunstopped hhalt
  have hopen : limit = some k → (c.after sink k).machine.atHalt = true := by
    intro hlimit
    by_contra hhalt
    exact hused ⟨hlimit, Bool.eq_false_of_not_eq_true hhalt⟩
  cases hsignal : stop (c.after sink k).sink with
  | true =>
    exact .stopped k hadv hunstopped hwithin hopen hsignal
      (runLoop_of_stop hc hadv hwithin hunstopped hopen hsignal)
  | false =>
    have hunstopped' : c.Unstopped sink stop (k + 1) := by
      intro i hi
      rcases Nat.lt_succ_iff_lt_or_eq.mp hi with hi | rfl
      · exact hunstopped i hi
      · exact hsignal
    -- the limit ends a run only in front of a halt instruction now, which retires nothing either
    have hstuck : ¬ (c.after sink k).Retires sink := by
      rcases Nat.find_spec hex with hstuck | hstop | hlimit
      · exact hstuck
      · rw [← hkdef, hsignal] at hstop
        cases hstop
      · exact stuck_of_halted ((atHalt_iff sink hrun).mp (hopen hlimit))
    rcases halted_or_error_of_stuck hstuck with hend | ⟨fault, hend⟩
    · exact .halted k hadv hunstopped' hwithin hend
        (runLoop_of_halted hc hadv hwithin hunstopped' hend)
    · have hwithin' : ∀ n ∈ limit, k < n := by
        intro n hn
        refine Nat.lt_of_le_of_ne (hwithin n hn) ?_
        rintro rfl
        have hhalt := (atHalt_iff sink hrun).mp (hopen hn)
        rw [hhalt] at hend
        cases hend
      exact .faulted k hadv hunstopped' hwithin' fault hend
        (runLoop_of_error hc hadv hwithin' hunstopped' hend)

end Stage

end LS8
