import LS8.Proofs.Machine.StepLimit

/-!
# Termination

A run needs no step limit to end. Every retired instruction takes the program counter two or three
cells further, and no instruction that reaches past the end of memory is retired, so a run from `pc`
retires at most `(256 - pc) / 2` instructions. A limit above this number is never felt
(`Stage.run_terminates`). The number itself is a limit that can be felt: a memory full of print
instructions is run through by the last instruction that the limit allows, and the fault that follows
is not attempted.
-/

namespace LS8

namespace Stage

variable {σ : Type} {sink : Sink σ} {c : Stage σ}

/-- The number of instructions that fit between the program counter and the end of memory bounds the
number of those that are retired. -/
theorem Advances.le_half (hpc : c.machine.pc ≤ 256) {k : Nat} (h : c.Advances sink k) :
    k ≤ (256 - c.machine.pc) / 2 := by
  have hlower := (pc_after_bounds h).1
  have hupper := pc_after_le hpc h
  omega

/-- A run that `k` retired instructions and one further request make up, and what follows for the
program counter and for limited runs. -/
structure TerminatesBehind (sink : Sink σ) (c : Stage σ) (k : Nat) : Prop where
  advances : c.Advances sink k
  /-- The run makes finitely many requests and reports how the last one ended, which is never the
  step limit. -/
  run_eq : c.run sink = c.answer sink (k + 1) (.ok ⟨k, .halted⟩) ∨
    ∃ fault, c.run sink = c.answer sink (k + 1) (.error fault)
  /-- Each retired instruction moves the program counter by two or three cells. -/
  pc_succ : ∀ i < k,
    (c.after sink (i + 1)).machine.pc = (c.after sink i).machine.pc + 2 ∨
      (c.after sink (i + 1)).machine.pc = (c.after sink i).machine.pc + 3
  /-- It leaves the program counter inside the memory or right behind its end. -/
  pc_le : ∀ i ≤ k, (c.after sink i).machine.pc ≤ 256
  pc_lower : c.machine.pc + 2 * k ≤ (c.run sink).machine.pc
  pc_upper : (c.run sink).machine.pc ≤ c.machine.pc + 3 * k
  le_half : k ≤ (256 - c.machine.pc) / 2
  le_128 : k ≤ 128
  /-- A large limit is not felt. -/
  limited_eq : ∀ n > (256 - c.machine.pc) / 2, c.runWithLimit sink n = c.run sink

/-- **Every run terminates, with a bound.** -/
theorem run_terminates (sink : Sink σ) (c : Stage σ) (hc : c.machine.runState = .running)
    (hpc : c.machine.pc ≤ 256) (hlimit : c.machine.config.stepLimit = none) :
    ∃ k, TerminatesBehind sink c k := by
  -- whichever way the run ends, it is an answer at stage `k + 1`, and so are the large limits
  have hend : ∃ k result, c.Advances sink k ∧ ¬ (c.after sink k).Retires sink ∧
      (result = .ok ⟨k, .halted⟩ ∨ ∃ fault, result = .error fault) ∧
      c.run sink = c.answer sink (k + 1) result ∧
      ∀ n > k, c.runWithLimit sink n = c.answer sink (k + 1) result := by
    obtain ⟨k, hend | ⟨fault, hend⟩⟩ := halts_or_faults sink hc
    · refine ⟨k, _, hend.advances, stuck_of_halted hend.halts, .inl rfl, hend.unlimited_eq hlimit,
        fun n hn => ?_⟩
      rw [hend.limited_eq, if_neg (Nat.not_lt_of_lt hn)]
    · refine ⟨k, _, hend.advances, stuck_of_error hend.faults, .inr ⟨fault, rfl⟩,
        hend.unlimited_eq hlimit, fun n hn => ?_⟩
      rw [hend.limited_eq, if_neg (Nat.not_le_of_lt hn)]
  obtain ⟨k, result, hadv, hstuck, hresult, hrunEq, hlimited⟩ := hend
  have hhalf := hadv.le_half hpc
  have hfinal : (c.run sink).machine.pc = (c.after sink k).machine.pc := by
    rw [hrunEq]
    change (c.after sink (k + 1)).machine.pc = _
    rw [after_succ', pc_next_of_stuck (runState_after hc hadv) hstuck]
  refine ⟨k, ?_⟩
  exact {
    advances := hadv
    run_eq := by
      rcases hresult with rfl | ⟨fault, rfl⟩
      · exact .inl hrunEq
      · exact .inr ⟨fault, hrunEq⟩
    pc_succ := by
      intro i hi
      obtain ⟨length, hmove⟩ := (hadv i hi).advance
      rw [after_succ', hmove.pc_eq]
      rcases hmove.length_eq with rfl | rfl
      · exact .inl rfl
      · exact .inr rfl
    pc_le := fun i hi => pc_after_le hpc (hadv.mono hi)
    pc_lower := by
      rw [hfinal]
      exact (pc_after_bounds hadv).1
    pc_upper := by
      rw [hfinal]
      exact (pc_after_bounds hadv).2
    le_half := hhalf
    le_128 := by omega
    limited_eq := by
      intro n hn
      rw [hlimited n (Nat.lt_of_le_of_lt hhalf hn), hrunEq] }

/-- A machine whose memory is full of print instructions. -/
def fullOfPrints : Machine :=
  { Machine.new with memory := .ofProgram (List.replicate 128 [0x47, 0]).flatten }

/-- The longest run: the memory is full of prints. -/
theorem run_terminates_fullOfPrints :
    fullOfPrints.runState = .running ∧ fullOfPrints.pc ≤ 256 ∧
      fullOfPrints.config.stepLimit = none ∧
      ∃ k, TerminatesBehind .collect (⟨fullOfPrints, []⟩ : Stage (List UInt8)) k :=
  ⟨rfl, by decide, rfl, run_terminates .collect ⟨fullOfPrints, []⟩ rfl (by decide) rfl⟩

-- the bound is tight: three instructions fit behind address 250, and the limit 3 is felt
example : ({ fullOfPrints with pc := 250 }.runWithLimit .collect 3 []).result.toOption =
      some ⟨3, .stepLimit⟩ ∧
    ({ fullOfPrints with pc := 250 }.run .collect []).result.toOption = none := by
  decide +kernel

end Stage

end LS8
