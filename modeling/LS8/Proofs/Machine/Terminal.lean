import LS8.Proofs.Machine.Operations

/-!
# Terminal states absorb

A machine that has halted or faulted is asked to execute in vain. Both the step and the run loop look
at the run state before anything else, so they answer with how the machine stopped, and do nothing:
no part of the machine changes, the sink is not asked and no event is reported (`Machine.Inert`).

The other operations of a host do not look at the run state, and none of them sets it but the three
that revive a machine (`Operation.Revives`). So the run state stays what it is through any session
without them, and at every point of such a session the machine is inert (`Stage.terminal_absorbs`).
-/

namespace LS8

/-- What a machine that has stopped answers when it is asked to execute: the fault that stopped it,
or that it has halted, in the terms of the request. -/
def RunState.verdict {α : Type} (state : RunState) (halted : α) : Except Fault α :=
  match state.latchedFault? with
  | some fault => .error fault
  | none => .ok halted

/-- A machine that only answers how it stopped. The sink and its state may be any, so also ones that
count how often they are called: they are left as they are, and nothing is reported to a listener. -/
structure Machine.Inert (m : Machine) : Prop where
  step_eq : ∀ {τ : Type} (sink : Sink τ) (t : τ),
    m.step sink t = ⟨m.runState.verdict .halted, m, t, []⟩
  run_eq : ∀ {τ : Type} (sink : Sink τ) (t : τ),
    m.run sink t = ⟨m.runState.verdict ⟨0, .halted⟩, m, t, []⟩
  runWithLimit_eq : ∀ {τ : Type} (sink : Sink τ) (limit : Nat) (t : τ),
    m.runWithLimit sink limit t = ⟨m.runState.verdict ⟨0, .halted⟩, m, t, []⟩
  runUntil_eq : ∀ {τ : Type} (sink : Sink τ) (stop : τ → Bool) (t : τ),
    m.runUntil sink stop t = ⟨m.runState.verdict ⟨0, .halted⟩, m, t, []⟩

variable {σ : Type}

/-- The machine runs in no terminal state. -/
theorem RunState.ne_running_of_isTerminal {state : RunState} (h : state.isTerminal = true) :
    state ≠ .running := by
  rintro rfl
  cases h

namespace Machine

variable {m : Machine}

/-- A step in a terminal state answers with the verdict on the state, and does nothing. -/
theorem step_of_isTerminal (h : m.runState.isTerminal = true) (sink : Sink σ) (s : σ) :
    m.step sink s = ⟨m.runState.verdict .halted, m, s, []⟩ := by
  cases hm : m.runState with
  | running => exact absurd hm (RunState.ne_running_of_isTerminal h)
  | halted => simp only [step, hm, RunState.verdict, RunState.latchedFault?]
  | faulted fault => simp only [step, hm, RunState.verdict, RunState.latchedFault?]

/-- The run loop looks at the run state before it looks at its limit and at its stop signal. -/
theorem runLoop_of_isTerminal (h : m.runState.isTerminal = true) (sink : Sink σ)
    (stop : σ → Bool) (limit : Option Nat) (s : σ) :
    m.runLoop sink stop limit s = ⟨m.runState.verdict ⟨0, .halted⟩, m, s, []⟩ := by
  cases hm : m.runState with
  | running => exact absurd hm (RunState.ne_running_of_isTerminal h)
  | halted => exact runLoop_of_halted hm
  | faulted fault => exact runLoop_of_faulted hm

/-- In a terminal state, nothing can be executed any more. -/
theorem inert_of_isTerminal (h : m.runState.isTerminal = true) : m.Inert where
  step_eq := step_of_isTerminal h
  run_eq sink := runLoop_of_isTerminal h sink (fun _ => false) m.config.stepLimit
  runWithLimit_eq sink limit := runLoop_of_isTerminal h sink (fun _ => false) (some limit)
  runUntil_eq sink stop := runLoop_of_isTerminal h sink stop m.config.stepLimit

end Machine

namespace Stage

variable {c : Stage σ}

/-- Operations that leave the run state of a stopped machine to itself. -/
def Spares (operation : Operation σ) (d : Stage σ) : Prop :=
  ¬ operation.Revives d.machine ∧ operation.isCommit = false

/-- **A session that spares a stopped machine leaves its run state**, and asks no sink. -/
theorem stopped_afterOperations {operations : List (Operation σ)}
    (hc : c.machine.runState ≠ .running) (h : c.Throughout Spares operations) :
    (c.afterOperations operations).machine.runState = c.machine.runState ∧
      (c.afterOperations operations).sink = c.sink := by
  refine afterOperations_induction
    (I := fun d => d.machine.runState = c.machine.runState ∧ d.sink = c.sink) ⟨rfl, rfl⟩ h ?_
  rintro operation d ⟨hstate, hsink⟩ ⟨hrevives, hcommit⟩
  -- up to here the machine is as it stopped, so it is a stopped machine that the operation meets
  have hd : d.machine.runState ≠ .running := by
    rw [hstate]
    exact hc
  obtain ⟨hstate', hsink'⟩ := stopped_perform_of_not_revives hd hrevives hcommit
  exact ⟨by rw [hstate', hstate], by rw [hsink', hsink]⟩

/-- **Terminal states absorb.** Through any session without reviving operations and direct commits a
machine that has halted or faulted keeps its run state, and it is inert wherever the session has come
to. Only an operation that revives it gives it another run state; resetting and loading always make
it run. -/
theorem terminal_absorbs (c : Stage σ) (hc : c.machine.runState.isTerminal = true) :
    (∀ operations : List (Operation σ), c.Throughout Spares operations →
      (c.afterOperations operations).machine.runState = c.machine.runState ∧
        (c.afterOperations operations).sink = c.sink ∧
        (c.afterOperations operations).machine.Inert) ∧
    (∀ operation : Operation σ, operation.isCommit = false →
      (operation.perform c).machine.runState ≠ c.machine.runState →
        operation.Revives c.machine) ∧
    c.machine.reset.runState = .running ∧
    ∀ image m', c.machine.load image = .ok m' → m'.runState = .running := by
  have hstopped := RunState.ne_running_of_isTerminal hc
  refine ⟨fun operations hoperations => ?_, fun operation hcommit hchanged => ?_, rfl, ?_⟩
  · obtain ⟨hstate, hsink⟩ := stopped_afterOperations hstopped hoperations
    have hterminal : (c.afterOperations operations).machine.runState.isTerminal = true := by
      rw [hstate]
      exact hc
    exact ⟨hstate, hsink, Machine.inert_of_isTerminal hterminal⟩
  -- an operation that does not revive the machine leaves the run state alone
  · by_contra hrevives
    exact hchanged (stopped_perform_of_not_revives hstopped hrevives hcommit).1
  · intro image m' hload
    obtain ⟨memory, rfl⟩ := Machine.eq_of_load hload
    rfl

/-- A machine that a refused output has stopped in front of its last cells. -/
def refusedLate : Stage (List UInt8) :=
  ⟨{ Machine.new with pc := 254, runState := .faulted (.outputFailed 254) }, [7]⟩

/-- Attempts at bringing a stopped machine back to work, none of which does. -/
def attempts : List (Operation (List UInt8)) :=
  [.call (.step .collect), .call (.runWithLimit .collect 0),
    .call (.load (.replicate 257 0)),
    .call (.restore ⟨.v1, 257, .zero, [], .running⟩), .call (.alu .div 1 2),
    .call (.write 254 0x01), .trace, .snapshot, .call (.runUntil .collect fun _ => true)]

/-- None of the attempts changes the run state or the sink, and a reset does. -/
theorem terminal_absorbs_refusedLate :
    refusedLate.machine.runState.isTerminal = true ∧ refusedLate.Throughout Spares attempts ∧
      (refusedLate.afterOperations attempts).machine.runState = .faulted (.outputFailed 254) ∧
      (refusedLate.afterOperations attempts).sink = [7] ∧
      (refusedLate.afterOperations attempts).machine.Inert ∧
      ((Operation.call .reset).perform refusedLate).machine.runState = .running := by
  have hlong : Memory.capacity < (List.replicate 257 (0 : UInt8)).length := by
    rw [List.length_replicate]
    decide
  -- only loads and restores have to be excluded, and both of them fail here
  have hattempts : refusedLate.Throughout Spares attempts :=
    ⟨⟨id, rfl⟩, ⟨id, rfl⟩, ⟨Machine.not_load_of_lt _ hlong, rfl⟩,
      ⟨Machine.not_restore_of_lt _ (by decide), rfl⟩, ⟨id, rfl⟩, ⟨id, rfl⟩, ⟨id, rfl⟩,
      ⟨id, rfl⟩, ⟨id, rfl⟩, trivial⟩
  obtain ⟨hsessions, -, hreset, -⟩ := terminal_absorbs refusedLate rfl
  obtain ⟨hstate, hsink, hinert⟩ := hsessions attempts hattempts
  exact ⟨rfl, hattempts, hstate, hsink, hinert, hreset⟩

end Stage

end LS8
