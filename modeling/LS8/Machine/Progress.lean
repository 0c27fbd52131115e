import LS8.Machine.Step

/-!
# Progress

A step that retires an instruction moves the program counter forward and keeps it inside the memory
or right behind its end (`Machine.pc_lt_of_retired`). This is what bounds the length of a run.
-/

namespace LS8

/-- Only the halt instruction leaves the program counter where it is. -/
theorem Instruction.effect_of_not_halt {instruction : Instruction} {registers : RegisterFile}
    {pc : Nat} {pending : Effect} (h : instruction.effect registers pc = .ok pending)
    (hhalt : pending.halt = false) : pending.nextPc = some (pc + instruction.length) := by
  -- each of the other instructions sets the program counter to what stands behind it
  cases instruction with
  | hlt =>
    obtain rfl := Except.ok.inj h
    cases hhalt
  | ldi dest value =>
    obtain rfl := Except.ok.inj h
    rfl
  | prn src =>
    obtain rfl := Except.ok.inj h
    rfl
  | alu op dest src =>
    obtain ⟨value, -, h⟩ := bind_eq_ok_iff.mp h
    obtain rfl := Except.ok.inj h
    rfl

namespace Machine

variable {σ : Type} {sink : Sink σ} {m : Machine} {s : σ}

/-- The next instruction was decoded at the program counter and its effects computed from the
registers. -/
theorem next_eq_ok_iff {instruction : Instruction} {effect : Effect} :
    m.next = .ok (instruction, effect) ↔
      decode m.memory m.pc = .ok instruction ∧
        instruction.effect m.registers m.pc = .ok effect := by
  constructor
  · intro h
    obtain ⟨i, hi, h⟩ := bind_eq_ok_iff.mp h
    obtain ⟨e, he, h⟩ := bind_eq_ok_iff.mp h
    cases h
    exact ⟨hi, he⟩
  · rintro ⟨hi, he⟩
    exact bind_eq_ok_iff.mpr ⟨instruction, hi, bind_eq_ok_iff.mpr ⟨effect, he, rfl⟩⟩

/-- A commit that succeeds has applied its effect. -/
theorem machine_commit_of_ok {effect : Effect} {pc : Nat}
    (h : (m.commit sink effect pc s).result = .ok ()) :
    (m.commit sink effect pc s).machine = effect.applyTo m := by
  unfold commit at h ⊢
  -- where a value is refused the answer is a fault, so both successes apply the effect
  split
  · rfl
  · split
    · rfl
    · simp_all

/-- A cycle that retires an instruction moves the program counter behind it. -/
theorem pc_cycle_of_retired {p l : Nat} (h : (m.cycle sink s).result = .ok (.retired p l)) :
    ∃ instruction, decode m.memory m.pc = .ok instruction ∧
      p = m.pc ∧ l = instruction.length ∧
      (m.cycle sink s).machine.pc = m.pc + instruction.length := by
  unfold cycle at h ⊢
  -- a cycle answers with a retirement only if nothing failed on the way: neither the decoding nor
  -- the commit, and the effect is not the one of the halt instruction
  cases hn : m.next with
  | error f => simp [hn] at h
  | ok pair =>
    obtain ⟨instruction, effect⟩ := pair
    obtain ⟨hd, he⟩ := next_eq_ok_iff.mp hn
    simp only [hn] at h ⊢
    cases hc : (m.commit sink effect m.pc s).result with
    | error f => simp [hc, Except.map] at h
    | ok u =>
      simp only [hc, Except.map, Except.ok.injEq] at h
      cases hh : effect.halt with
      | true => simp [hh] at h
      | false =>
        simp only [hh, Bool.false_eq_true, if_false, StepOutcome.retired.injEq] at h
        refine ⟨instruction, hd, h.1.symm, h.2.symm, ?_⟩
        rw [machine_commit_of_ok hc]
        simp [Effect.applyTo, Instruction.effect_of_not_halt he hh]

/-- A step retires exactly what the cycle of a running machine retires. -/
theorem step_of_retired {p l : Nat} (h : (m.step sink s).result = .ok (.retired p l)) :
    m.runState = .running ∧ m.step sink s = m.cycle sink s := by
  unfold step at h ⊢
  -- the two terminal states answer without a retirement
  split at h
  · simp at h
  · simp at h
  · rename_i hrun
    refine ⟨hrun, ?_⟩
    simp only at h ⊢
    split
    · rfl
    · simp_all

/-- **A retired instruction moves the machine forward.** The program counter grows and stays at
most one past the last cell. -/
theorem pc_lt_of_retired {p l : Nat} (h : (m.step sink s).result = .ok (.retired p l)) :
    m.pc < (m.step sink s).machine.pc ∧ (m.step sink s).machine.pc ≤ 256 := by
  obtain ⟨-, hstep⟩ := step_of_retired h
  rw [hstep] at h ⊢
  obtain ⟨instruction, hd, -, -, hpc⟩ := pc_cycle_of_retired h
  rw [hpc]
  -- the length is positive, and the whole instruction was read from the memory
  have := instruction.length_pos
  have := add_length_le_of_decode hd
  omega

end Machine

end LS8
