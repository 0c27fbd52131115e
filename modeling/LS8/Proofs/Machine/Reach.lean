import LS8.Proofs.Instruction.Refusal
import LS8.Proofs.Machine.Json

/-!
# Every machine in reach survives its text

`json_round_trips` asks of a machine that its latched fault fits. A fault that latches while a
machine runs does: its numbers are the program counter, which stays inside the memory or right
behind its end, or an address that a decoder has formed from it (`error_of_decode`). Any other fault
came in with a snapshot, and snapshots that were read from texts fit as well
(`Snapshot.exists_text_iff`). So whatever a host does, the machine it ends up with can be carried on
as a text (`Stage.carriedByText_afterCalls`).
-/

namespace LS8

variable {σ : Type}

/-- A call that brings in no numbers beyond their fields: everything but restoring a snapshot that
no text spells. -/
def Call.Fits : Call σ → Prop
  | restore snapshot => snapshot.Fits
  | _ => True

namespace Stage

variable {sink : Sink σ} {stop : σ → Bool} {limit : Option Nat} {c : Stage σ} {config : Config}

/-- A decoder reports numbers that fit. -/
theorem fits_of_decode {memory : Memory} {pc : Nat} {fault : Fault} (hpc : pc ≤ 256)
    (h : decode memory pc = .error fault) : fault.Fits := by
  have hbound : 256 + 258 < addressBound := by decide
  rcases error_of_decode h with ⟨opcode, -, rfl⟩ | ⟨space, index, hindex, rfl⟩
  · show pc < addressBound
    omega
  · show index < addressBound
    omega

/-- A request latches only faults that fit. -/
theorem fits_next (sink : Sink σ) (hpc : c.machine.pc ≤ 256) (h : c.machine.runState.Fits) :
    (c.next sink).machine.runState.Fits := by
  by_cases hm : c.machine.runState = .running
  · show (c.machine.step sink c.sink).machine.runState.Fits
    -- a step that latches no fault leaves a machine that runs or halts
    cases Machine.step_cases sink c.sink hm with
    | undecodable fault hd hstep =>
      rw [hstep]
      exact fits_of_decode hpc hd
    | hlt hd hstep =>
      rw [hstep]
      trivial
    | ldi dest value hd hstep =>
      rw [hstep]
      exact h
    | mul dest src hd hstep =>
      rw [hstep]
      exact h
    | accepted src s' hd hs hstep =>
      rw [hstep]
      exact h
    | refused src s' hd hs hstep =>
      have hbound : 256 < addressBound := by decide
      rw [hstep]
      exact Nat.lt_of_le_of_lt hpc hbound
  · rw [next_of_terminal hm]
    exact h

/-- What a session keeps. -/
structure InReach (config : Config) (c : Stage σ) : Prop where
  keeps : c.machine.Keeps config
  fits : c.machine.runState.Fits

/-- A request leaves the machine in reach. -/
theorem inReach_next (sink : Sink σ) (h : c.InReach config) : (c.next sink).InReach config where
  keeps := keeps_next sink h.keeps
  fits := fits_next sink h.keeps.pc_le h.fits

/-- **Every call leaves the machine in reach**, if it brings in nothing that is too wide. -/
theorem inReach_perform {call : Call σ} (hcall : call.Fits) (h : c.InReach config) :
    (call.perform c).InReach config := by
  refine ⟨keeps_perform call h.keeps, ?_⟩
  have hrun : ∀ (sink : Sink σ) stop limit,
      (c.runLoop sink stop limit).stage.InReach config := fun sink stop limit =>
    runLoop_induction (P := fun d => d.InReach config) h fun _ => inReach_next sink
  cases call with
  | step sink => exact (inReach_next sink h).fits
  | run sink => exact (hrun sink (fun _ => false) c.machine.config.stepLimit).fits
  | runWithLimit sink limit => exact (hrun sink (fun _ => false) (some limit)).fits
  | runUntil sink stop => exact (hrun sink stop c.machine.config.stepLimit).fits
  | reset => trivial
  -- a program is loaded into a machine that is reset, and a snapshot brings its own run state
  | load image =>
    refine Machine.settle_induction (P := fun m => m.runState.Fits) h.fits fun m' hm' => ?_
    obtain ⟨memory, rfl⟩ := Machine.eq_of_load hm'
    trivial
  | restore snapshot =>
    refine Machine.settle_induction (P := fun m => m.runState.Fits) h.fits fun m' hm' => ?_
    obtain ⟨-, memory, -, rfl⟩ := Machine.eq_of_restore hm'
    exact hcall.runState_fits
  | _ =>
    exact touches_induction (P := fun d => d.machine.runState.Fits) trivial fun _ _ => h.fits

/-- **Whatever a host has done to a machine, its text carries it over** to any other machine with
the same configuration. -/
theorem carriedByText_afterCalls {calls : List (Call σ)} (hcalls : ∀ call ∈ calls, call.Fits)
    (s : σ) {t : Machine} (hconfig : t.config = config) :
    ((⟨.withConfig config, s⟩ : Stage σ).afterCalls calls).machine.CarriedByText t := by
  have hreach : ((⟨.withConfig config, s⟩ : Stage σ).afterCalls calls).InReach config := by
    have hstart : (⟨.withConfig config, s⟩ : Stage σ).InReach config :=
      ⟨⟨Nat.zero_le 256, rfl⟩, trivial⟩
    exact afterCalls_induction (P := fun d => d.InReach config) hstart fun call hcall _ =>
      inReach_perform (hcalls call hcall)
  refine Machine.carriedByText hreach.keeps.pc_le hreach.fits ?_
  rw [hconfig, hreach.keeps.config_eq]

end Stage

end LS8
