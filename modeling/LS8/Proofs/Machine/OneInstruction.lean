import LS8.Proofs.Instruction.Grammar
import LS8.Proofs.Machine.Offers

/-!
# One step, one instruction

A step that succeeds has executed the instruction at the program counter, and the answer together
with the bytes in memory tells what has changed. This module says it without decoding: by the byte
at the program counter and the one behind it.

* A step halts exactly where the byte is the halt opcode. The look-ahead of the run loop tests the
  same condition, so a run that has used up its limit makes one more request only if this one halts.
* A step that retires an instruction moves the program counter by the length that the two top bits
  of the opcode announce. What else it has done is of one of two kinds. A load or a multiplication
  has written the register that the first operand names, and the sink has not been asked
  (`Stage.WritesRegister`). A print instruction has offered the register that its operand names, the
  sink has accepted, and no register has changed (`Stage.PrintsRegister`).

Whether a sink was asked cannot be seen from its state, so the offers are those of a record beside
it (`Stage.MakesOffers`).
-/

namespace LS8

namespace Stage

variable {σ : Type} {sink : Sink σ} {c : Stage σ}

/-- **The offers of a step request**: a record beside the sink grows by exactly these, and shows
nothing else of the answer. -/
def MakesOffers (sink : Sink σ) (c : Stage σ) (offers : List (UInt8 × Bool)) : Prop :=
  ∀ log, (c.record log).step sink.recording =
    (c.step sink).mapSink fun s => (s, log ++ offers)

/-- The offers of a request are what a record beside its sink grows by. -/
theorem makesOffers (sink : Sink σ) (c : Stage σ) : c.MakesOffers sink (c.offers sink) :=
  fun _ => step_record

/-- What a step has done that executed the halt instruction: nothing but to stop the machine. -/
structure Halts (sink : Sink σ) (c : Stage σ) : Prop where
  machine_eq : (c.step sink).machine = { c.machine with runState := .halted }
  sink_eq : (c.step sink).sink = c.sink
  silent : c.MakesOffers sink []

/-- What a step has done that executed a load or a multiplication. -/
structure WritesRegister (sink : Sink σ) (c : Stage σ) : Prop where
  opcode : c.machine.memory.get? c.machine.pc = some 0x82 ∨
    c.machine.memory.get? c.machine.pc = some 0xA2
  sink_eq : (c.step sink).sink = c.sink
  silent : c.MakesOffers sink []
  others_eq : ∃ dest : Register,
    c.machine.memory.get? (c.machine.pc + 1) = some (UInt8.ofNat dest.val) ∧
      ∀ r, r ≠ dest → (c.step sink).machine.registers.get r = c.machine.registers.get r

/-- What a step has done that executed a print instruction. -/
structure PrintsRegister (sink : Sink σ) (c : Stage σ) : Prop where
  opcode : c.machine.memory.get? c.machine.pc = some 0x47
  offered : ∃ src : Register,
    c.machine.memory.get? (c.machine.pc + 1) = some (UInt8.ofNat src.val) ∧
      c.MakesOffers sink [(c.machine.registers.get src, true)]
  registers_eq : (c.step sink).machine.registers = c.machine.registers

/-- What a step has done that answers with a retired instruction. -/
structure Retirement (sink : Sink σ) (c : Stage σ) (pc length : Nat) : Prop where
  pc_eq : pc = c.machine.pc
  /-- The length is one byte, and as many operands as the two top bits of the opcode count. -/
  length_eq : ∃ opcode, c.machine.memory.get? pc = some opcode ∧ length = 1 + opcode.toNat / 64
  pc_next_eq : (c.step sink).machine.pc = pc + length
  pc_next_le : pc + length ≤ 256
  runState_eq : (c.step sink).machine.runState = .running
  memory_eq : (c.step sink).machine.memory = c.machine.memory
  config_eq : (c.step sink).machine.config = c.machine.config
  effect : WritesRegister sink c ∨ PrintsRegister sink c

/-- What a step of a running machine has done, wherever it succeeds. -/
structure ExecutesOne (sink : Sink σ) (c : Stage σ) : Prop where
  halts_iff : (c.step sink).result = .ok .halted ↔
    c.machine.pc < 256 ∧ c.machine.memory.get? c.machine.pc = some 0x01
  /-- The look-ahead of the run loop tests the same. -/
  atHalt_iff : c.machine.atHalt = true ↔
    c.machine.pc < 256 ∧ c.machine.memory.get? c.machine.pc = some 0x01
  halts : (c.step sink).result = .ok .halted → Halts sink c
  retires : ∀ pc length, (c.step sink).result = .ok (.retired pc length) →
    Retirement sink c pc length

/-! ### The three ways to succeed -/

/-- The first operand of an instruction stands behind its opcode. -/
theorem get?_operand_of_decode {i : Instruction} {operand : UInt8} {later : List UInt8}
    (hd : decode c.machine.memory c.machine.pc = .ok i)
    (hoperands : i.operandBytes = operand :: later) :
    c.machine.memory.get? c.machine.pc = some i.opcode.byte ∧
      c.machine.memory.get? (c.machine.pc + 1) = some operand := by
  have hholds : c.machine.memory.Holds c.machine.pc (i.opcode.byte :: i.operandBytes) :=
    holds_encode_of_decode hd
  rw [hoperands] at hholds
  exact ⟨hholds.1, hholds.2.1⟩

/-- A request that is answered with a halt has found one. -/
theorem halts_of_result (hc : c.machine.runState = .running)
    (h : (c.step sink).result = .ok .halted) : Halts sink c := by
  have hstep : c.step sink = c.machine.stepHalted c.sink := (Machine.step_of_halted hc h).2
  have hoffers := makesOffers sink c
  rw [offers_of_halted hc h] at hoffers
  exact {
    machine_eq := by rw [hstep]; rfl
    sink_eq := by rw [hstep]; rfl
    silent := hoffers }

/-- An instruction that prints nothing and sets one register. -/
theorem writesRegister_of_step {i : Instruction} {dest : Register} {value : UInt8}
    {later : List UInt8} {event : TraceEvent}
    (hd : decode c.machine.memory c.machine.pc = .ok i)
    (hopcode : i.opcode.byte = 0x82 ∨ i.opcode.byte = 0xA2)
    (hoperands : i.operandBytes = UInt8.ofNat dest.val :: later)
    (hstep : c.step sink =
      c.machine.stepRetired 3 (c.machine.registers.set dest value) c.sink event)
    (hoffers : c.offers sink = []) : WritesRegister sink c := by
  obtain ⟨hbyte, hoperand⟩ := get?_operand_of_decode hd hoperands
  have hsilent := makesOffers sink c
  rw [hoffers] at hsilent
  exact {
    opcode := by
      rw [hbyte]
      exact hopcode.imp (congrArg some) (congrArg some)
    sink_eq := by rw [hstep]; rfl
    silent := hsilent
    others_eq := by
      -- the register is the one that the byte behind the opcode names
      refine ⟨dest, hoperand, fun r hr => ?_⟩
      rw [hstep]
      exact RegisterFile.get_set_of_ne hr }

/-- A retired print has offered its register, and the sink has taken it. -/
theorem printsRegister_of_step {src : Register} {s' : σ} {event : TraceEvent}
    (hd : decode c.machine.memory c.machine.pc = .ok (.prn src))
    (hstep : c.step sink = c.machine.stepRetired 2 c.machine.registers s' event)
    (hoffers : c.offers sink = [(c.machine.registers.get src, true)]) : PrintsRegister sink c := by
  obtain ⟨hbyte, hoperand⟩ := get?_operand_of_decode hd rfl
  have hoffered := makesOffers sink c
  rw [hoffers] at hoffered
  exact {
    opcode := hbyte
    offered := ⟨src, hoperand, hoffered⟩
    registers_eq := by rw [hstep]; rfl }

/-- A retired instruction has written a register or printed one. -/
theorem effect_of_retires (h : c.Retires sink) : WritesRegister sink c ∨ PrintsRegister sink c := by
  have hc := h.runState_eq
  obtain ⟨pc, length, hresult⟩ := h
  cases Machine.retire_cases hresult with
  | ldi dest value hd hstep =>
    exact .inl (writesRegister_of_step hd (.inl rfl) rfl hstep (by simp [offers, hc, hd]))
  | mul dest src hd hstep =>
    exact .inl (writesRegister_of_step hd (.inr rfl) rfl hstep (by simp [offers, hc, hd]))
  | accepted src s' hd hs hstep =>
    exact .inr (printsRegister_of_step hd hstep (by simp [offers, hc, hd, hs]))

/-- The length of a retired instruction is the one that its opcode announces. -/
theorem length_of_retired {pc length : Nat} (h : (c.step sink).result = .ok (.retired pc length)) :
    ∃ opcode, c.machine.memory.get? c.machine.pc = some opcode ∧
      length = 1 + opcode.toNat / 64 := by
  rw [step] at h
  obtain ⟨-, hcycle⟩ := Machine.step_of_retired h
  rw [hcycle] at h
  obtain ⟨i, hd, -, hlength, -⟩ := Machine.pc_cycle_of_retired h
  -- what was decoded is what stands in memory, so its opcode is the byte that is asked for
  have hbyte : c.machine.memory.get? c.machine.pc = some i.opcode.byte :=
    (holds_encode_of_decode hd).1
  exact ⟨i.opcode.byte, hbyte, hlength.trans (length_of_decode hd hbyte)⟩

/-- **A retirement is that of the instruction at the program counter.** -/
theorem retirement_of_result {pc length : Nat}
    (h : (c.step sink).result = .ok (.retired pc length)) : Retirement sink c pc length := by
  obtain ⟨rfl, hadvance⟩ := Machine.advance_of_retired h
  have hpc := hadvance.pc_eq
  exact {
    pc_eq := rfl
    length_eq := length_of_retired h
    pc_next_eq := hpc
    pc_next_le := hpc ▸ hadvance.pc_le
    runState_eq := hadvance.runState_eq
    memory_eq := hadvance.memory_eq
    config_eq := hadvance.config_eq
    effect := effect_of_retires ⟨_, _, h⟩ }

/-- **A step that succeeds is one instruction.** It halts where the halt opcode stands and changes
only the run state there; everywhere else it retires the instruction whose opcode stands at the
program counter, with the effect that this instruction has and no other. -/
theorem step_executesOne (sink : Sink σ) (c : Stage σ) (hc : c.machine.runState = .running) :
    ExecutesOne sink c := by
  -- a byte that is found lies inside the memory
  have hat : c.machine.atHalt = true ↔
      c.machine.pc < 256 ∧ c.machine.memory.get? c.machine.pc = some 0x01 := by
    rw [Machine.atHalt_iff_get?]
    exact ⟨fun h => ⟨Memory.lt_of_get? h, h⟩, And.right⟩
  exact {
    halts_iff := (atHalt_iff sink hc).symm.trans hat
    atHalt_iff := hat
    halts := halts_of_result hc
    retires := fun _ _ => retirement_of_result }

/-- A machine whose last two cells are a print instruction, and a sink with room for its value. -/
def printsLast : Stage (List UInt8) :=
  ⟨{ Machine.new with
      memory := ⟨(List.replicate 254 (0 : UInt8) ++ [0x47, 3]).toArray, by
        rw [List.size_toArray, List.length_append, List.length_replicate]
        rfl⟩
      pc := 254 }, []⟩

/-- The last two cells of the memory are a print, and the sink has room for it. -/
theorem step_executesOne_printsLast :
    printsLast.machine.runState = .running ∧
      (printsLast.step (.bounded (some 1))).result = .ok (.retired 254 2) ∧
      ExecutesOne (.bounded (some 1)) printsLast :=
  ⟨rfl, by decide +kernel, step_executesOne (.bounded (some 1)) printsLast rfl⟩

end Stage

end LS8
