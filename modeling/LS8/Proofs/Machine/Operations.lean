import LS8.Proofs.Machine.Snapshot

/-!
# Everything that a host can do

A `Call` asks a machine for something. A host can do two more kinds of things: it can look at a
machine, and it can commit effects of its own making, which no instruction has computed. `Operation`
adds these to the calls, and `Stage.afterOperations` is what a list of operations leaves.

Whether a load or a restore goes through depends on what is loaded or restored, so statements about
sessions speak of each operation at the stage at which it is made: `Stage.Throughout` says that all
operations of a session meet a condition there. `Stage.afterOperations_induction` is the induction
that goes with it. Two conditions are of use.

* `Operation.Revives` singles out the operations that give a machine a new run state. A machine that
  has stopped stays as it stopped through all others (`Stage.stopped_perform_of_not_revives`).
* `Operation.Rewrites` singles out the operations that may change the memory. All others keep it,
  and they keep the configuration (`Stage.kept_perform`).
-/

namespace LS8

variable {σ : Type}

/-- Anything that a host does with a machine. -/
inductive Operation (σ : Type) where
  | call (asked : Call σ)
  /-- Committing effects, whatever the run state is. They need not be those of an instruction, and
  `pc` need not be the program counter. -/
  | commit (sink : Sink σ) (effect : Effect) (pc : Nat)
  /-- Looking at the trace frame of the machine. -/
  | trace
  /-- Taking a snapshot of the machine. -/
  | snapshot

namespace Machine

/-- An image that is too large is not loaded. -/
theorem not_load_of_lt (m : Machine) {image : List UInt8} (h : Memory.capacity < image.length) :
    ¬ ∃ m', m.load image = .ok m' := by
  rintro ⟨m', hm'⟩
  exact Nat.not_le_of_lt h (length_le_of_load hm')

/-- A snapshot whose program counter is too large is not restored. -/
theorem not_restore_of_lt (m : Machine) {snapshot : Snapshot} (h : Memory.capacity < snapshot.pc) :
    ¬ ∃ m', m.restore snapshot = .ok m' := by
  rintro ⟨m', hm'⟩
  exact Nat.not_le_of_lt h (restorable_of_restore hm').1

end Machine

namespace Operation

/-- What an operation leaves, whatever it gives back. -/
def perform : Operation σ → Stage σ → Stage σ
  | call asked, c => asked.perform c
  | commit sink effect pc, c => (c.machine.commit sink effect pc c.sink).stage
  | trace, c => c
  | snapshot, c => c

def isCommit : Operation σ → Bool
  | commit .. => true
  | _ => false

/-- The operations that give a machine a new run state: resetting it, and loading and restoring where
these succeed. -/
def Revives (m : Machine) : Operation σ → Prop
  | call .reset => True
  | call (.load image) => ∃ m', m.load image = .ok m'
  | call (.restore image) => ∃ m', m.restore image = .ok m'
  | _ => False

/-- The operations that may change the memory: writing to it, and loading and restoring where these
succeed. -/
def Rewrites (m : Machine) : Operation σ → Prop
  | call (.load image) => ∃ m', m.load image = .ok m'
  | call (.restore image) => ∃ m', m.restore image = .ok m'
  | call (.write ..) => True
  | call (.writeValue ..) => True
  | call (.patch _) => True
  | _ => False

end Operation

namespace Stage

variable {c : Stage σ}

/-! ### Sessions of operations -/

/-- What a list of operations leaves. -/
def afterOperations (c : Stage σ) (operations : List (Operation σ)) : Stage σ :=
  operations.foldl (fun d operation => operation.perform d) c

/-- Each operation of a session meets a condition at the stage at which it is made. -/
def Throughout (P : Operation σ → Stage σ → Prop) (c : Stage σ) : List (Operation σ) → Prop
  | [] => True
  | operation :: later => P operation c ∧ (operation.perform c).Throughout P later

/-- **Induction over a session of operations.** What holds at its start and is kept by every
operation that meets the condition of the session holds at its end. -/
theorem afterOperations_induction {P : Operation σ → Stage σ → Prop} {I : Stage σ → Prop}
    {operations : List (Operation σ)} (hI : I c) (h : c.Throughout P operations)
    (hkept : ∀ operation d, I d → P operation d → I (operation.perform d)) :
    I (c.afterOperations operations) := by
  induction operations generalizing c with
  | nil => exact hI
  | cons operation later ih =>
    obtain ⟨hfirst, hlater⟩ := h
    exact ih (hkept operation c hI hfirst) hlater

/-! ### Operations on a machine that has stopped -/

/-- A call that asks for a new run state gets it. -/
theorem revives_of_renews {call : Call σ} (m : Machine) (h : call.Renews) :
    (Operation.call call).Revives m := by
  cases call with
  | reset => trivial
  | load image => exact ⟨_, m.load_of_length_le h⟩
  | restore snapshot => exact (snapshot.restoresExactly m).succeeds_iff.mpr h
  | _ => exact absurd h id

/-- **A stopped machine stays as it stopped** unless it is revived, or effects are committed to it
directly. No sink is asked for anything. -/
theorem stopped_perform_of_not_revives {operation : Operation σ}
    (hm : c.machine.runState ≠ .running) (hrevives : ¬ operation.Revives c.machine)
    (hcommit : operation.isCommit = false) :
    (operation.perform c).machine.runState = c.machine.runState ∧
      (operation.perform c).sink = c.sink := by
  cases operation with
  | call asked =>
    exact stopped_perform asked hm fun hrenews => hrevives (revives_of_renews c.machine hrenews)
  | commit sink effect pc => cases hcommit
  | trace => exact ⟨rfl, rfl⟩
  | snapshot => exact ⟨rfl, rfl⟩

/-! ### Operations that keep the memory -/

/-- An answer that brings no machine leaves the old one. -/
theorem kept_settle {answer : Except Fault Machine} (h : ¬ ∃ m', answer = .ok m') :
    c.machine.settle answer = c.machine := by
  cases answer with
  | ok m' => exact absurd ⟨m', rfl⟩ h
  | error fault => rfl

/-- Committing changes registers, the program counter and the run state, or nothing. -/
theorem kept_commit (sink : Sink σ) (m : Machine) (effect : Effect) (pc : Nat) (s : σ) :
    (m.commit sink effect pc s).machine.memory = m.memory ∧
      (m.commit sink effect pc s).machine.config = m.config := by
  unfold Machine.commit
  split
  · exact ⟨rfl, rfl⟩
  · split
    · exact ⟨rfl, rfl⟩
    · exact ⟨rfl, rfl⟩

/-- **What does not rewrite the memory keeps it**, and keeps the configuration. -/
theorem kept_perform {operation : Operation σ} (h : ¬ operation.Rewrites c.machine) :
    (operation.perform c).machine.memory = c.machine.memory ∧
      (operation.perform c).machine.config = c.machine.config := by
  have hsame : ∀ {m : Machine}, m = c.machine →
      m.memory = c.machine.memory ∧ m.config = c.machine.config := by
    rintro m rfl
    exact ⟨rfl, rfl⟩
  cases operation with
  | trace => exact ⟨rfl, rfl⟩
  | snapshot => exact ⟨rfl, rfl⟩
  | commit sink effect pc => exact kept_commit sink c.machine effect pc c.sink
  | call asked =>
    cases asked with
    | step sink => exact kept_next sink c
    | run sink => exact kept_runLoop sink (fun _ => false) c.machine.config.stepLimit c
    | runWithLimit sink limit => exact kept_runLoop sink (fun _ => false) (some limit) c
    | runUntil sink stop => exact kept_runLoop sink stop c.machine.config.stepLimit c
    | reset => exact ⟨rfl, rfl⟩
    -- these two would rewrite the memory if they succeeded
    | load image => exact hsame (kept_settle h)
    | restore snapshot => exact hsame (kept_settle h)
    | alu op dest src =>
      refine Machine.settle_induction
        (P := fun m => m.memory = c.machine.memory ∧ m.config = c.machine.config) ⟨rfl, rfl⟩ ?_
      intro m' hm'
      obtain ⟨registers, rfl⟩ := Machine.eq_of_alu hm'
      exact ⟨rfl, rfl⟩
    | write address byte => exact absurd trivial h
    | writeValue address value => exact absurd trivial h
    | patch memory => exact absurd trivial h

end Stage

end LS8
