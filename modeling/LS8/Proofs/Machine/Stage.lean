import Mathlib.Data.List.Iterate
import LS8.Proofs.Machine.Step

/-!
# Stages of an execution

A host that asks for one step after another hands the machine and the sink that one step leaves to
the next one. `Stage` is what it hands on, and `Stage.after` is what `n` step requests make of it.
`Stage.Advances` says that each of the first `n` requests retires an instruction; this is the part
of an execution that a run loop goes through before it has to answer.

* `Stage.Advances.induction` packages the induction over such a stretch: what holds at its start and
  is kept by a retired instruction holds at its end. The invariants follow from it
  (`Stage.runState_after`, `Stage.pc_after_le`).
* `Stage.pc_after_bounds` bounds the program counter on both sides by the number of retired
  instructions.
* `Stage.exists_advances` says that every stretch comes to an end, and `Stage.halted_or_error_of_stuck`
  that it ends in one of two ways: the next request halts the machine, or it faults.
-/

namespace LS8

/-- A machine together with the state of the sink that it prints to. -/
structure Stage (σ : Type) where
  machine : Machine
  sink : σ

/-- The part of an answer that the next call starts from. -/
def Response.stage {σ α : Type} (r : Response σ α) : Stage σ :=
  ⟨r.machine, r.sink⟩

namespace Stage

variable {σ : Type}

/-- The answer to a step request. -/
def step (sink : Sink σ) (c : Stage σ) : Response σ StepOutcome :=
  c.machine.step sink c.sink

/-- What a step request leaves, whatever its answer is. -/
def next (sink : Sink σ) (c : Stage σ) : Stage σ :=
  ⟨(c.step sink).machine, (c.step sink).sink⟩

/-- What `n` step requests leave. -/
def after (sink : Sink σ) (c : Stage σ) (n : Nat) : Stage σ :=
  (next sink)^[n] c

/-- The stages at which the first `n` step requests are made. -/
def path (sink : Sink σ) (c : Stage σ) (n : Nat) : List (Stage σ) :=
  List.iterate (next sink) c n

/-- The events that the first `n` step requests report. -/
def events (sink : Sink σ) (c : Stage σ) (n : Nat) : List TraceEvent :=
  (c.path sink n).flatMap fun d => (d.step sink).events

/-- The next step request retires an instruction. -/
def Retires (sink : Sink σ) (c : Stage σ) : Prop :=
  ∃ pc length, (c.step sink).result = .ok (.retired pc length)

/-- Each of the first `n` step requests retires an instruction. -/
def Advances (sink : Sink σ) (c : Stage σ) (n : Nat) : Prop :=
  ∀ i < n, (c.after sink i).Retires sink

/-- Each of the first `n` step requests is made of a running machine. -/
def Runs (sink : Sink σ) (c : Stage σ) (n : Nat) : Prop :=
  ∀ i < n, (c.after sink i).machine.runState = .running

variable {sink : Sink σ} {c : Stage σ}

/-! ### Counting requests -/

@[simp] theorem after_zero : c.after sink 0 = c := rfl

theorem after_succ (n : Nat) : c.after sink (n + 1) = (c.next sink).after sink n := rfl

/-- The last request can be split off instead of the first one. -/
theorem after_succ' (n : Nat) : c.after sink (n + 1) = (c.after sink n).next sink :=
  Function.iterate_succ_apply' _ _ _

/-- Requests add up: `n` of them behind `k` others are `k + n`. -/
theorem after_add (k n : Nat) : (c.after sink k).after sink n = c.after sink (k + n) := by
  unfold after
  rw [Nat.add_comm, Function.iterate_add_apply]

theorem path_succ (n : Nat) : c.path sink (n + 1) = c :: (c.next sink).path sink n := rfl

/-- A path grows at its end by the stage that is reached. -/
theorem path_succ' (n : Nat) : c.path sink (n + 1) = c.path sink n ++ [c.after sink n] :=
  List.iterate_add _ _ n 1

/-- The stages of a path are the ones that fewer requests lead to. -/
theorem mem_path {n : Nat} {d : Stage σ} : d ∈ c.path sink n ↔ ∃ i < n, d = c.after sink i :=
  List.mem_iterate

@[simp] theorem events_zero : c.events sink 0 = [] := rfl

/-- The events of the first request come first. -/
theorem events_succ (n : Nat) :
    c.events sink (n + 1) = (c.step sink).events ++ (c.next sink).events sink n := rfl

/-- The events of two stretches in a row are those of the whole. -/
theorem events_add (k n : Nat) :
    c.events sink k ++ (c.after sink k).events sink n = c.events sink (k + n) := by
  unfold events path after
  rw [List.iterate_add, List.flatMap_append]

/-! ### Stretches of retired instructions -/

theorem advances_zero : c.Advances sink 0 := fun _ hi => absurd hi (Nat.not_lt_zero _)

/-- A longer stretch is a retired instruction and a stretch behind it. -/
theorem advances_succ {n : Nat} :
    c.Advances sink (n + 1) ↔ c.Retires sink ∧ (c.next sink).Advances sink n := by
  constructor
  · intro h
    exact ⟨h 0 (Nat.succ_pos n), fun i hi => h (i + 1) (Nat.succ_lt_succ hi)⟩
  · rintro ⟨h0, h⟩ i hi
    -- request `i + 1` behind `c` is request `i` behind its first one
    cases i with
    | zero => exact h0
    | succ i => exact h i (Nat.lt_of_succ_lt_succ hi)

/-- A part of a stretch is a stretch. -/
theorem Advances.mono {n k : Nat} (h : c.Advances sink n) (hk : k ≤ n) : c.Advances sink k :=
  fun i hi => h i (Nat.lt_of_lt_of_le hi hk)

/-- A retired instruction moves the machine on by its length. -/
theorem Retires.advance (h : c.Retires sink) :
    ∃ length, c.machine.Advance length (c.next sink).machine := by
  obtain ⟨pc, length, h⟩ := h
  exact ⟨length, (Machine.advance_of_retired h).2⟩

/-- Only a running machine retires instructions. -/
theorem Retires.runState_eq (h : c.Retires sink) : c.machine.runState = .running := by
  obtain ⟨pc, length, h⟩ := h
  exact (Machine.step_of_retired h).1

/-- **Induction over a stretch.** -/
theorem Advances.induction {P : Stage σ → Prop} (hP : P c)
    (hstep : ∀ d : Stage σ, P d → d.Retires sink → P (d.next sink)) {n : Nat}
    (h : c.Advances sink n) : P (c.after sink n) := by
  -- by induction on the stretch, whose last request is the one split off
  induction n with
  | zero => exact hP
  | succ n ih =>
    rw [after_succ']
    exact hstep _ (ih (h.mono (Nat.le_succ n))) (h n (Nat.lt_succ_self n))

/-- **A machine runs at the end of a stretch** as it did at its start. -/
theorem runState_after (hc : c.machine.runState = .running) {n : Nat} (h : c.Advances sink n) :
    (c.after sink n).machine.runState = .running := by
  refine h.induction (P := fun d => d.machine.runState = .running) hc ?_
  intro d _ hd
  obtain ⟨length, hadv⟩ := hd.advance
  exact hadv.runState_eq

/-- Leaving out the last request leaves the others as they are. -/
theorem Runs.of_succ {n : Nat} (h : c.Runs sink (n + 1)) : c.Runs sink n :=
  fun i hi => h i (Nat.lt_succ_of_lt hi)

/-- Every request of a stretch is made of a running machine. -/
theorem Advances.runs {n : Nat} (h : c.Advances sink n) : c.Runs sink n :=
  fun i hi => (h i hi).runState_eq

/-- The request behind a stretch is made of a running machine, too. -/
theorem Advances.runs_succ (hc : c.machine.runState = .running) {n : Nat}
    (h : c.Advances sink n) : c.Runs sink (n + 1) :=
  fun _ hi => runState_after hc (h.mono (Nat.le_of_lt_succ hi))

/-! ### The program counter along a stretch -/

/-- **The program counter stays in the memory or right behind it.** -/
theorem pc_after_le (hc : c.machine.pc ≤ 256) {n : Nat} (h : c.Advances sink n) :
    (c.after sink n).machine.pc ≤ 256 := by
  refine h.induction (P := fun d => d.machine.pc ≤ 256) hc ?_
  intro d _ hd
  obtain ⟨length, hadv⟩ := hd.advance
  exact hadv.pc_le

/-- **Every retired instruction moves the program counter by two or three cells.** -/
theorem pc_after_bounds {n : Nat} (h : c.Advances sink n) :
    c.machine.pc + 2 * n ≤ (c.after sink n).machine.pc ∧
      (c.after sink n).machine.pc ≤ c.machine.pc + 3 * n := by
  -- each request adds its length to both bounds, and the length is two or three
  induction n with
  | zero => simp
  | succ n ih =>
    obtain ⟨hlower, hupper⟩ := ih (h.mono (Nat.le_succ n))
    obtain ⟨length, hadv⟩ := (h n (Nat.lt_succ_self n)).advance
    have hpc := hadv.pc_eq
    have hlength := hadv.length_eq
    rw [after_succ']
    omega

/-- **Every execution comes to an end.** Some request retires no instruction, because each one that
does moves the program counter towards the end of memory. -/
theorem exists_advances (sink : Sink σ) (c : Stage σ) :
    ∃ n, c.Advances sink n ∧ ¬ (c.after sink n).Retires sink := by
  -- the measure is the number of cells behind the program counter
  induction hd : 256 - c.machine.pc using Nat.strong_induction_on generalizing c with
  | h d ih =>
    by_cases hr : c.Retires sink
    · obtain ⟨pc, length, hresult⟩ := hr
      have hlt := Machine.pc_lt_of_retired hresult
      have hmeasure : 256 - (c.next sink).machine.pc < d := by
        rw [← hd]
        change 256 - (c.machine.step sink c.sink).machine.pc < 256 - c.machine.pc
        omega
      obtain ⟨n, hn, hend⟩ := ih _ hmeasure (c.next sink) rfl
      -- the stretch behind the retired instruction, with it in front
      exact ⟨n + 1, advances_succ.mpr ⟨⟨pc, length, hresult⟩, hn⟩, hend⟩
    · exact ⟨0, advances_zero, hr⟩

/-! ### Where a stretch ends -/

/-- A request to a running machine that retires no instruction halts it or faults. -/
theorem halted_or_error_of_stuck (h : ¬ c.Retires sink) :
    (c.step sink).result = .ok .halted ∨ ∃ fault, (c.step sink).result = .error fault := by
  cases hr : (c.step sink).result with
  | error fault => exact .inr ⟨fault, rfl⟩
  | ok outcome =>
    cases outcome with
    | halted => exact .inl rfl
    | retired pc length => exact absurd ⟨pc, length, hr⟩ h

/-- A machine that runs stands in front of a halt exactly if its next request halts it. -/
theorem atHalt_iff (sink : Sink σ) (hc : c.machine.runState = .running) :
    c.machine.atHalt = true ↔ (c.step sink).result = .ok .halted :=
  Machine.atHalt_iff sink c.sink hc

/-- So nothing is retired in front of a halt. -/
theorem Retires.not_atHalt (h : c.Retires sink) : c.machine.atHalt = false := by
  cases hh : c.machine.atHalt with
  | false => rfl
  | true =>
    -- the look-ahead is right, so the request would have halted instead
    have hhalt := (atHalt_iff sink h.runState_eq).mp hh
    obtain ⟨pc, length, hr⟩ := h
    rw [hhalt] at hr
    cases hr

/-- A halt is no retirement. -/
theorem stuck_of_halted (h : (c.step sink).result = .ok .halted) : ¬ c.Retires sink := by
  rintro ⟨pc, length, hr⟩
  rw [h] at hr
  cases hr

/-- Nor is a fault. -/
theorem stuck_of_error {fault : Fault} (h : (c.step sink).result = .error fault) :
    ¬ c.Retires sink := by
  rintro ⟨pc, length, hr⟩
  rw [h] at hr
  cases hr

/-- A halt changes the run state and nothing else. -/
theorem next_of_halted (hc : c.machine.runState = .running)
    (hend : (c.step sink).result = .ok .halted) :
    c.next sink = ⟨{ c.machine with runState := .halted }, c.sink⟩ := by
  rw [next, step, (Machine.step_of_halted hc hend).2]
  rfl

/-- A request that finds no instruction faults, and the sink is not asked. -/
theorem next_of_decode_error (hc : c.machine.runState = .running) {fault : Fault}
    (hd : decode c.machine.memory c.machine.pc = .error fault) :
    (c.step sink).result = .error fault ∧
      c.next sink = ⟨{ c.machine with runState := .faulted fault }, c.sink⟩ := by
  rw [next, step, Machine.step_of_decode_error hc hd]
  exact ⟨rfl, rfl⟩

/-- **A fault is latched and changes nothing else of the machine.** -/
theorem machine_next_of_error (hc : c.machine.runState = .running) {fault : Fault}
    (hend : (c.step sink).result = .error fault) :
    (c.next sink).machine = { c.machine with runState := .faulted fault } := by
  rw [next, step, Machine.step_of_error hc hend]
  rfl

/-- The request that ends a run does not move the program counter. -/
theorem pc_next_of_stuck (hc : c.machine.runState = .running) (h : ¬ c.Retires sink) :
    (c.next sink).machine.pc = c.machine.pc := by
  -- the two ways to end a run change the run state only
  rcases halted_or_error_of_stuck h with hend | ⟨fault, hend⟩
  · rw [next_of_halted hc hend]
  · rw [machine_next_of_error hc hend]

/-! ### What requests leave alone -/

/-- A machine that has stopped executes nothing. -/
theorem next_of_terminal (h : c.machine.runState ≠ .running) : c.next sink = c := by
  -- both terminal states are answered before anything is decoded
  cases hm : c.machine.runState with
  | running => exact absurd hm h
  | halted => simp [next, step, Machine.step, hm]
  | faulted fault => simp [next, step, Machine.step, hm]

/-- No request changes the memory or the configuration, whatever its answer is. -/
theorem kept_next (sink : Sink σ) (c : Stage σ) :
    (c.next sink).machine.memory = c.machine.memory ∧
      (c.next sink).machine.config = c.machine.config := by
  -- a retired instruction, the requests to a machine that has ended, and the two ends of a run
  by_cases hr : c.Retires sink
  · obtain ⟨length, hadv⟩ := hr.advance
    exact ⟨hadv.memory_eq, hadv.config_eq⟩
  by_cases hm : c.machine.runState = .running
  · rcases halted_or_error_of_stuck hr with hend | ⟨fault, hend⟩
    · rw [next_of_halted hm hend]
      exact ⟨rfl, rfl⟩
    · rw [machine_next_of_error hm hend]
      exact ⟨rfl, rfl⟩
  · rw [next_of_terminal hm]
    exact ⟨rfl, rfl⟩

/-- No stretch of requests changes the memory. -/
theorem memory_after (n : Nat) : (c.after sink n).machine.memory = c.machine.memory := by
  induction n with
  | zero => rfl
  | succ n ih => rw [after_succ', (kept_next sink _).1, ih]

/-- Nor does it change the configuration. -/
theorem config_after (n : Nat) : (c.after sink n).machine.config = c.machine.config := by
  induction n with
  | zero => rfl
  | succ n ih => rw [after_succ', (kept_next sink _).2, ih]

end Stage

end LS8
