import LS8.Proofs.Machine.Operations
import LS8.Proofs.Memory.Image

/-!
# Loading and resetting erase history

Loading looks at nothing of a machine but its configuration. It covers the whole memory, so cells
of a longer program that was there before are cleared, and resets everything else
(`Machine.Fresh`, `Machine.load_eq_fresh`).

Resetting looks at the memory and the configuration (`Machine.reset_eq_of_kept`). No execution
writes to either, however it ends, and neither does committing an effect, whatever the effect is.
So a reset gives back the machine that was loaded, at the end of any session that does not rewrite
the memory (`Stage.history_erased`), and a program can be run again under the same conditions.
-/

namespace LS8

variable {config : Config} {image : List UInt8}

namespace Machine

/-- The machine that loading an image into a machine with the given configuration makes. -/
def fresh (config : Config) (image : List UInt8) : Machine :=
  { memory := .ofProgram image, config }

/-- A machine right after loading: the image with zeros behind it, and nothing executed yet. -/
structure Fresh (config : Config) (image : List UInt8) (m : Machine) : Prop where
  memory_eq : m.memory.toList = image ++ List.replicate (256 - image.length) 0
  registers_eq : ∀ r, m.registers.get r = 0
  pc_eq : m.pc = 0
  runState_eq : m.runState = .running
  config_eq : m.config = config

/-- A machine that a reset takes back to a fresh one. What is run then, under whatever limit and
signal, is what would be run on the fresh one. -/
structure Restarts (fresh m : Machine) : Prop where
  reset_eq : m.reset = fresh
  rerun_eq : ∀ {τ : Type} (sink : Sink τ) (stop : τ → Bool) (limit : Option Nat) (t : τ),
    m.reset.runLoop sink stop limit t = fresh.runLoop sink stop limit t

/-- An image that fits makes a fresh machine. -/
theorem fresh_of_length_le (config : Config) (h : image.length ≤ 256) :
    (fresh config image).Fresh config image where
  memory_eq := Memory.toList_ofProgram h
  registers_eq := RegisterFile.get_zero
  pc_eq := rfl
  runState_eq := rfl
  config_eq := rfl

@[simp] theorem reset_fresh (config : Config) (image : List UInt8) :
    (fresh config image).reset = fresh config image := rfl

/-- **Loading depends on the configuration alone.** -/
theorem load_eq_fresh {m : Machine} (hconfig : m.config = config) (h : image.length ≤ 256) :
    m.load image = .ok (fresh config image) := by
  rw [m.load_of_length_le h, ← hconfig]
  rfl

/-- A reset leaves no trace of anything but the memory and the configuration. -/
theorem reset_eq_of_kept {m m' : Machine} (hmemory : m'.memory = m.memory)
    (hconfig : m'.config = m.config) : m'.reset = m.reset := by
  unfold reset
  rw [hmemory, hconfig]

end Machine

namespace Stage

variable {σ : Type} {c : Stage σ}

/-- Operations that do not rewrite the memory. -/
def Preserves (operation : Operation σ) (d : Stage σ) : Prop :=
  ¬ operation.Rewrites d.machine

/-- **Sessions that do not rewrite the memory keep it**, and keep the configuration. -/
theorem kept_afterOperations {operations : List (Operation σ)}
    (h : c.Throughout Preserves operations) :
    (c.afterOperations operations).machine.memory = c.machine.memory ∧
      (c.afterOperations operations).machine.config = c.machine.config := by
  refine afterOperations_induction
    (I := fun d => d.machine.memory = c.machine.memory ∧ d.machine.config = c.machine.config)
    ⟨rfl, rfl⟩ h ?_
  intro operation d hd hpreserves
  obtain ⟨hmemory, hconfig⟩ := kept_perform hpreserves
  exact ⟨hmemory.trans hd.1, hconfig.trans hd.2⟩

/-- **Loading and resetting erase history.** All machines with one configuration are the same after
loading an image, namely the machine that is built with this configuration and loaded. From there, a
session that does not rewrite the memory may do anything, and a reset at its end gives that machine
again. -/
theorem history_erased (config : Config) {image : List UInt8} (himage : image.length ≤ 256) :
    ∃ fresh : Machine, fresh.Fresh config image ∧
      (Machine.withConfig config).load image = .ok fresh ∧
      (∀ m : Machine, m.config = config → m.load image = .ok fresh) ∧
      ∀ {σ : Type} (s : σ) (operations : List (Operation σ)),
        (⟨fresh, s⟩ : Stage σ).Throughout Preserves operations →
          fresh.Restarts ((⟨fresh, s⟩ : Stage σ).afterOperations operations).machine := by
  refine ⟨.fresh config image, Machine.fresh_of_length_le config himage,
    Machine.load_eq_fresh rfl himage, fun m hm => Machine.load_eq_fresh hm himage, ?_⟩
  intro σ s operations hoperations
  -- what a reset starts from is the memory and the configuration, and both were kept
  obtain ⟨hmemory, hconfig⟩ := kept_afterOperations hoperations
  have hreset : ((⟨.fresh config image, s⟩ : Stage σ).afterOperations operations).machine.reset =
      .fresh config image := by
    rw [Machine.reset_eq_of_kept hmemory hconfig, Machine.reset_fresh]
  exact ⟨hreset, fun sink stop limit t => by rw [hreset]⟩

/-- A machine behind the end of a full memory, with a trace and a limit. -/
def usedUp : Machine where
  memory := ⟨.replicate 256 0xff⟩
  registers := ⟨.replicate 8 0xf4⟩
  pc := 256
  runState := .faulted (.addressOutOfRange .memory 256)
  config := { tracing := true, stepLimit := some 2 }

/-- Loads a register, prints it and halts. -/
def printEight : List UInt8 :=
  [0x82, 0x00, 0x08, 0x47, 0x00, 0x01]

/-- Runs that are interrupted, refused and limited, and requests that fail. -/
def mishaps : List (Operation (List UInt8)) :=
  [.call (.runUntil .collect fun _ => true), .call (.run (.bounded (some 0))),
    .call (.load (.replicate 257 0)), .call (.restore ⟨.v1, 257, .zero, [], .running⟩),
    .call .reset, .call (.runWithLimit .collect 1), .trace, .call (.step .collect), .snapshot,
    .commit .collect
      { output := some 1, registerWrite := some (Fin.last 7, 3), nextPc := some 300 } 7,
    .call (.alu .add 0 3)]

/-- A machine that has used up its limit is as good as a new one. -/
theorem history_erased_printEight :
    printEight.length ≤ 256 ∧ usedUp.load printEight =
      (Machine.withConfig { tracing := true, stepLimit := some 2 }).load printEight ∧
    ∃ fresh, usedUp.load printEight = .ok fresh ∧
      (⟨fresh, []⟩ : Stage (List UInt8)).Throughout Preserves mishaps ∧
      ((⟨fresh, []⟩ : Stage (List UInt8)).afterOperations mishaps).machine.reset = fresh := by
  have hlong : Memory.capacity < (List.replicate 257 (0 : UInt8)).length := by
    rw [List.length_replicate]
    decide
  have himage : printEight.length ≤ 256 := by decide
  obtain ⟨fresh, -, hnew, hload, hrestarts⟩ :=
    history_erased { tracing := true, stepLimit := some 2 } himage
  have hused := hload usedUp rfl
  have hmishaps : (⟨fresh, []⟩ : Stage (List UInt8)).Throughout Preserves mishaps :=
    ⟨id, id, Machine.not_load_of_lt _ hlong, Machine.not_restore_of_lt _ (by decide), id, id, id,
      id, id, id, id, trivial⟩
  exact ⟨himage, hused.trans hnew.symm, fresh, hused, hmishaps,
    (hrestarts [] mishaps hmishaps).reset_eq⟩

end Stage

end LS8
