import LS8.Machine.Snapshot
import LS8.Proofs.Machine.Course

/-!
# Sessions

A host drives a machine by one call after another: it loads and resets, steps and runs, uses the
arithmetic unit, writes to memory and restores snapshots. A `Call` is one of these, and
`Stage.afterCalls` is what a list of them leaves. Each call that prints names its own sink, over a
state that all of them share, so a session may change its sink at any time. Events are part of what
a call answers, so the forms with and without a listener are one call here.

`Stage.afterCalls_induction` packages the induction over a session: what holds at its start and is
kept by each of its calls holds at its end. Two invariants are proved from it.

* The program counter stays inside the memory or right behind its end, and the configuration stays
  what it was (`Stage.keeps_perform`). A step keeps the bound because decoding has read every operand
  byte before the program counter moves behind them, and `Machine.restore` checks it.
* A machine that has stopped stays as it stopped, and asks no sink for anything, until a call gives
  it a new run state (`Stage.stopped_afterCalls`).
-/

namespace LS8

/-! ### Requests that may fail -/

namespace Machine

variable {m m' : Machine}

/-- The program counter is inside the memory or right behind its end, and the configuration is the
one that the host chose. -/
structure Keeps (config : Config) (m : Machine) : Prop where
  pc_le : m.pc ≤ 256
  config_eq : m.config = config

/-- What a request makes of a machine. If it fails, the machine is still the old one. -/
def settle (m : Machine) : Except Fault Machine → Machine
  | .ok m' => m'
  | .error _ => m

/-- What holds of a machine and of each machine that a request can make of it, holds after it. -/
theorem settle_induction {P : Machine → Prop} {answer : Except Fault Machine} (hm : P m)
    (hok : ∀ m', answer = .ok m' → P m') : P (m.settle answer) := by
  cases answer with
  | ok m' => exact hok m' rfl
  | error fault => exact hm

/-- Loading changes the memory and resets the rest. -/
theorem eq_of_load {image : List UInt8} (h : m.load image = .ok m') :
    ∃ memory, m' = { m with memory }.reset := by
  obtain ⟨memory, -, rfl⟩ := map_eq_ok_iff.mp h
  exact ⟨memory, rfl⟩

/-- A loaded image fits. -/
theorem length_le_of_load {image : List UInt8} (h : m.load image = .ok m') :
    image.length ≤ Memory.capacity := by
  by_contra hlong
  have hload : m.load image = .error (.programTooLarge image.length Memory.capacity) := by
    unfold load Memory.loadImage
    rw [if_neg hlong]
    rfl
  rw [hload] at h
  cases h

/-- The arithmetic unit changes registers only. -/
theorem eq_of_alu {op : AluOp} {dest src : Nat} (h : (m.alu op dest src).map (·.2) = .ok m') :
    ∃ registers, m' = { m with registers } := by
  obtain ⟨answer, halu, rfl⟩ := map_eq_ok_iff.mp h
  obtain ⟨d, -, halu⟩ := bind_eq_ok_iff.mp halu
  obtain ⟨r, -, halu⟩ := bind_eq_ok_iff.mp halu
  obtain ⟨⟨value, registers⟩, -, hanswer⟩ := bind_eq_ok_iff.mp halu
  cases hanswer
  exact ⟨registers, rfl⟩

/-- A write changes the memory only. -/
theorem eq_of_write {address : Nat} {byte : UInt8} (h : m.write address byte = .ok m') :
    ∃ memory, m' = { m with memory } := by
  obtain ⟨memory, -, rfl⟩ := map_eq_ok_iff.mp h
  exact ⟨memory, rfl⟩

/-- So does a write of a value that was checked. -/
theorem eq_of_writeValue {address value : Nat} (h : m.writeValue address value = .ok m') :
    ∃ memory, m' = { m with memory } := by
  obtain ⟨memory, -, rfl⟩ := map_eq_ok_iff.mp h
  exact ⟨memory, rfl⟩

/-- Restoring takes everything from the snapshot but the configuration. -/
theorem eq_of_restore {snapshot : Snapshot} (h : m.restore snapshot = .ok m') :
    snapshot.pc ≤ Memory.capacity ∧ ∃ memory, Memory.ofImage snapshot.memory = .ok memory ∧
      m' = { m with memory, registers := snapshot.registers, pc := snapshot.pc,
                    runState := snapshot.runState } := by
  unfold restore at h
  split at h
  · cases h
  · next hpc =>
    obtain ⟨memory, himage, rfl⟩ := map_eq_ok_iff.mp h
    exact ⟨Nat.le_of_not_lt hpc, memory, himage, rfl⟩

/-- A snapshot that was accepted is one of a machine. -/
theorem restorable_of_restore {snapshot : Snapshot} (h : m.restore snapshot = .ok m') :
    snapshot.pc ≤ Memory.capacity ∧ snapshot.memory.length = Memory.capacity := by
  obtain ⟨hpc, memory, himage, -⟩ := eq_of_restore h
  refine ⟨hpc, ?_⟩
  rw [← Memory.toList_of_ofImage himage, Memory.length_toList]
  rfl

/-- A machine's own snapshot describes it, if its program counter lies in the range that snapshots
may have. -/
theorem restore_snapshot (t : Machine) (hpc : m.pc ≤ 256) :
    t.restore m.snapshot = .ok { m with config := t.config } := by
  have hle : ¬ Memory.capacity < m.snapshot.pc := Nat.not_lt_of_le hpc
  have himage : Memory.ofImage m.snapshot.memory = .ok m.memory := Memory.ofImage_toList m.memory
  unfold restore
  rw [if_neg hle, himage]
  rfl

end Machine

/-! ### Calls -/

/-- What a host can ask of a machine. `patch` stands for anything else that a host does to the
memory that it has borrowed. -/
inductive Call (σ : Type) where
  | load (image : List UInt8)
  | reset
  | step (sink : Sink σ)
  | run (sink : Sink σ)
  | runWithLimit (sink : Sink σ) (limit : Nat)
  | runUntil (sink : Sink σ) (stop : σ → Bool)
  | alu (op : AluOp) (dest src : Nat)
  | write (address : Nat) (byte : UInt8)
  | writeValue (address value : Nat)
  | patch (memory : Memory)
  | restore (snapshot : Snapshot)

variable {σ : Type}

/-- What a call leaves, whatever its answer is. -/
def Call.perform : Call σ → Stage σ → Stage σ
  | load image, c => { c with machine := c.machine.settle (c.machine.load image) }
  | reset, c => { c with machine := c.machine.reset }
  | step sink, c => c.next sink
  | run sink, c => (c.run sink).stage
  | runWithLimit sink limit, c => (c.runWithLimit sink limit).stage
  | runUntil sink stop, c => (c.machine.runUntil sink stop c.sink).stage
  | alu op dest src, c =>
    { c with machine := c.machine.settle ((c.machine.alu op dest src).map (·.2)) }
  | write address byte, c => { c with machine := c.machine.settle (c.machine.write address byte) }
  | writeValue address value, c =>
    { c with machine := c.machine.settle (c.machine.writeValue address value) }
  | patch memory, c => { c with machine := { c.machine with memory } }
  | restore snapshot, c => { c with machine := c.machine.settle (c.machine.restore snapshot) }

/-- Calls that give the machine a new run state: resetting it, and loading and restoring what can be
loaded and restored. -/
def Call.Renews : Call σ → Prop
  | load image => image.length ≤ Memory.capacity
  | reset => True
  | restore snapshot =>
    snapshot.pc ≤ Memory.capacity ∧ snapshot.memory.length = Memory.capacity
  | _ => False

/-- Calls that change nothing but memory cells and registers. -/
def Call.Touches : Call σ → Prop
  | alu .. | write .. | writeValue .. | patch _ => True
  | _ => False

namespace Stage

variable {sink : Sink σ} {stop : σ → Bool} {limit : Option Nat} {c : Stage σ}

/-- What holds whatever the memory and the registers are, holds after a call that touches these. -/
theorem touches_induction {P : Stage σ → Prop} {call : Call σ} (hcall : call.Touches)
    (h : ∀ memory registers, P { c with machine := { c.machine with memory, registers } }) :
    P (call.perform c) := by
  -- a call that fails leaves the machine as it is, which has some memory and some registers
  have hsettle : ∀ {answer : Except Fault Machine}, (∀ m', answer = .ok m' → P ⟨m', c.sink⟩) →
      P ⟨c.machine.settle answer, c.sink⟩ := fun hok =>
    Machine.settle_induction (P := fun m => P ⟨m, c.sink⟩)
      (h c.machine.memory c.machine.registers) hok
  cases call with
  | patch memory => exact h memory c.machine.registers
  | alu op dest src =>
    refine hsettle fun m' hm' => ?_
    obtain ⟨registers, rfl⟩ := Machine.eq_of_alu hm'
    exact h c.machine.memory registers
  | write address byte =>
    refine hsettle fun m' hm' => ?_
    obtain ⟨memory, rfl⟩ := Machine.eq_of_write hm'
    exact h memory c.machine.registers
  | writeValue address value =>
    refine hsettle fun m' hm' => ?_
    obtain ⟨memory, rfl⟩ := Machine.eq_of_writeValue hm'
    exact h memory c.machine.registers
  | _ => exact absurd hcall id

/-- What a list of calls leaves. -/
def afterCalls (c : Stage σ) (calls : List (Call σ)) : Stage σ :=
  calls.foldl (fun d call => call.perform d) c

/-- **Induction over a session.** -/
theorem afterCalls_induction {P : Stage σ → Prop} {calls : List (Call σ)} (hP : P c)
    (hcall : ∀ call ∈ calls, ∀ d, P d → P (call.perform d)) : P (c.afterCalls calls) := by
  induction calls generalizing c with
  | nil => exact hP
  | cons call calls ih =>
    have hfirst : P (call.perform c) := hcall call List.mem_cons_self c hP
    exact ih hfirst fun later hlater => hcall later (List.mem_cons_of_mem call hlater)

/-! ### The range of the program counter -/

variable {config : Config}

/-- A request keeps the program counter in range and the configuration. -/
theorem keeps_next (sink : Sink σ) (h : c.machine.Keeps config) :
    (c.next sink).machine.Keeps config where
  config_eq := by rw [(kept_next sink c).2, h.config_eq]
  pc_le := by
    by_cases hr : c.Retires sink
    -- decoding read the last byte of the instruction, so the end of it is in range
    · obtain ⟨length, hadv⟩ := hr.advance
      exact hadv.pc_le
    by_cases hm : c.machine.runState = .running
    · rw [pc_next_of_stuck hm hr]
      exact h.pc_le
    · rw [next_of_terminal hm]
      exact h.pc_le

/-- **Every call keeps the program counter in range** and the configuration as it is. -/
theorem keeps_perform (call : Call σ) (h : c.machine.Keeps config) :
    (call.perform c).machine.Keeps config := by
  have hrun : ∀ (sink : Sink σ) stop limit,
      (c.runLoop sink stop limit).stage.machine.Keeps config := fun sink stop limit =>
    runLoop_induction (P := fun d => d.machine.Keeps config) h fun _ => keeps_next sink
  cases call with
  | step sink => exact keeps_next sink h
  | run sink => exact hrun sink (fun _ => false) c.machine.config.stepLimit
  | runWithLimit sink limit => exact hrun sink (fun _ => false) (some limit)
  | runUntil sink stop => exact hrun sink stop c.machine.config.stepLimit
  | reset => exact ⟨Nat.zero_le 256, h.config_eq⟩
  -- these two may fail; what they make of the machine where they do not
  | load image =>
    refine Machine.settle_induction h fun m' hm' => ?_
    obtain ⟨memory, rfl⟩ := Machine.eq_of_load hm'
    exact ⟨Nat.zero_le 256, h.config_eq⟩
  | restore snapshot =>
    refine Machine.settle_induction h fun m' hm' => ?_
    obtain ⟨hpc, memory, -, rfl⟩ := Machine.eq_of_restore hm'
    exact ⟨hpc, h.config_eq⟩
  | _ =>
    exact touches_induction (P := fun d => d.machine.Keeps config) trivial
      fun _ _ => ⟨h.pc_le, h.config_eq⟩

/-- What is known of a machine that a host has reached. The sums are those that the machine forms
from its program counter: where the operands of an instruction lie, which cells a trace frame shows,
and where the next instruction starts. -/
structure Reached (config : Config) (m : Machine) : Prop where
  pc_le : m.pc ≤ 256
  config_eq : m.config = config
  operand_lt : m.pc + 1 < addressBound ∧ m.pc + 2 < addressBound
  window_lt : ∀ offset < TraceFrame.windowSize, m.pc + offset < addressBound
  next_lt : ∀ instruction : Instruction, m.pc + instruction.length < addressBound
  restore_eq : ∀ t : Machine, t.restore m.snapshot = .ok { m with config := t.config }

/-- **The program counter stays in range in every reachable state.** A session may start from any
configuration, so also from the default one of `Machine.new`; its calls may succeed or fail, print
to any sinks, and restore any snapshots. -/
theorem reached_afterCalls (config : Config) (s : σ) (calls : List (Call σ)) :
    Reached config ((⟨.withConfig config, s⟩ : Stage σ).afterCalls calls).machine := by
  have hkeeps : ((⟨.withConfig config, s⟩ : Stage σ).afterCalls calls).machine.Keeps config :=
    afterCalls_induction (P := fun d => d.machine.Keeps config) ⟨Nat.zero_le 256, rfl⟩
      fun call _ _ => keeps_perform call
  -- the addresses that are formed lie a few cells behind the program counter
  have hpc := hkeeps.pc_le
  exact {
    pc_le := hpc
    config_eq := hkeeps.config_eq
    operand_lt := by
      unfold addressBound
      omega
    window_lt := by
      intro offset hoffset
      unfold TraceFrame.windowSize at hoffset
      unfold addressBound
      omega
    next_lt := by
      intro instruction
      have hlength := instruction.length_le
      unfold addressBound
      omega
    restore_eq := fun t => Machine.restore_snapshot t hpc }

/-! ### Machines that have stopped -/

/-- **A machine that has stopped stays so**, unless the call renews it. -/
theorem stopped_perform (call : Call σ) (hm : c.machine.runState ≠ .running)
    (hcall : ¬ call.Renews) :
    (call.perform c).machine.runState = c.machine.runState ∧ (call.perform c).sink = c.sink := by
  have hstays : ∀ {d : Stage σ}, d = c →
      d.machine.runState = c.machine.runState ∧ d.sink = c.sink := by
    rintro d rfl
    exact ⟨rfl, rfl⟩
  have hsettle : ∀ {answer : Except Fault Machine},
      (∀ m', answer = .ok m' → m'.runState = c.machine.runState) →
      (c.machine.settle answer).runState = c.machine.runState := fun hok =>
    Machine.settle_induction (P := fun m => m.runState = c.machine.runState) rfl hok
  cases call with
  | step sink => exact hstays (next_of_terminal hm)
  | run sink => exact hstays (runLoop_of_terminal hm)
  | runWithLimit sink limit => exact hstays (runLoop_of_terminal hm)
  | runUntil sink stop => exact hstays (runLoop_of_terminal hm)
  | reset => exact absurd trivial hcall
  -- a call that succeeds here would renew the machine
  | load image =>
    refine ⟨hsettle fun m' hm' => ?_, rfl⟩
    exact absurd (Machine.length_le_of_load hm') hcall
  | restore snapshot =>
    refine ⟨hsettle fun m' hm' => ?_, rfl⟩
    exact absurd (Machine.restorable_of_restore hm') hcall
  | _ =>
    exact touches_induction
      (P := fun d => d.machine.runState = c.machine.runState ∧ d.sink = c.sink) trivial
      fun _ _ => ⟨rfl, rfl⟩

/-- **A machine that has stopped stays as it stopped**, and no sink hears of it, until a call gives
it a new run state. -/
theorem stopped_afterCalls {calls : List (Call σ)} (hm : c.machine.runState ≠ .running)
    (hcalls : ∀ call ∈ calls, ¬ call.Renews) :
    (c.afterCalls calls).machine.runState = c.machine.runState ∧
      (c.afterCalls calls).sink = c.sink := by
  -- the invariant holds both the run state and the sink, and is kept by every call that renews
  -- nothing
  refine afterCalls_induction
    (P := fun d => d.machine.runState = c.machine.runState ∧ d.sink = c.sink) ⟨rfl, rfl⟩ ?_
  rintro call hcall d ⟨hstate, hsink⟩
  have hd : d.machine.runState ≠ .running := by
    rw [hstate]
    exact hm
  obtain ⟨hstate', hsink'⟩ := stopped_perform call hd (hcalls call hcall)
  exact ⟨by rw [hstate', hstate], by rw [hsink', hsink]⟩

end Stage

end LS8
