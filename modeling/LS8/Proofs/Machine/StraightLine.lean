import Mathlib.Logic.Function.Basic
import LS8.Proofs.Instruction.Encoding
import LS8.Proofs.Machine.RunLoop

/-!
# Straight-line programs

Programs of this machine have no jumps, so what a program means can be said without a machine: its
statements are carried out one after another over eight registers and a list of printed values
(`meaning`). This module connects the meaning with execution (`Machine.run_assembled`).

The connection is a simulation. Its invariant is `Stage.Reflects`, that the registers and the sink
are those of the meaning so far. One statement keeps it (`Stage.reflects_next`), because the code at
the program counter decodes to the statement (`Statement.decode_of_holds`), and a program keeps it by
induction over the statements (`Stage.reflects_after`). What ends the run is the byte behind the
code: a halt instruction, a cleared cell, or the end of memory.
-/

namespace LS8

/-! ### Statements and what they mean -/

/-- A statement of a straight-line program. -/
inductive Statement where
  | load (dest : Register) (value : UInt8)
  | print (src : Register)
  | multiply (dest src : Register)
  deriving DecidableEq

/-- What a program has done so far. -/
structure Meaning where
  registers : Register → UInt8
  output : List UInt8

namespace Statement

/-- The bytes of a statement. -/
def encode : Statement → List UInt8
  | load dest value => [0x82, UInt8.ofNat dest.val, value]
  | print src => [0x47, UInt8.ofNat src.val]
  | multiply dest src => [0xA2, UInt8.ofNat dest.val, UInt8.ofNat src.val]

/-- What a statement does. A product is taken modulo 256, of the values before the statement. -/
def execute (e : Meaning) : Statement → Meaning
  | load dest value => { e with registers := Function.update e.registers dest value }
  | print src => { e with output := e.output ++ [e.registers src] }
  | multiply dest src =>
    { e with
      registers := Function.update e.registers dest
        (UInt8.ofNat ((e.registers dest).toNat * (e.registers src).toNat % 256)) }

def instruction : Statement → Instruction
  | load dest value => .ldi dest value
  | print src => .prn src
  | multiply dest src => .alu .mul dest src

end Statement

def assemble (program : List Statement) : List UInt8 :=
  program.flatMap Statement.encode

/-- **What a program means**, started over zero registers and without output. -/
def meaning (program : List Statement) : Meaning :=
  program.foldl Statement.execute ⟨fun _ => 0, []⟩

theorem assemble_cons (s : Statement) (program : List Statement) :
    assemble (s :: program) = s.encode ++ assemble program := rfl

/-! ### Code is read back -/

/-- **Code decodes to the statements that it was made from.** -/
theorem Statement.decode_of_holds {memory : Memory} {pc : Nat} {s : Statement}
    (h : memory.Holds pc s.encode) : decode memory pc = .ok s.instruction := by
  -- the bytes are read in their order: the opcode, which is looked up, and then each operand
  cases s with
  | load dest value =>
    obtain ⟨hop, hdest, hvalue, -⟩ := h
    refine bind_eq_ok_iff.mpr ⟨_, Memory.read_eq_ok_iff.mpr hop, ?_⟩
    exact bind_eq_ok_iff.mpr ⟨dest, registerOperand_of_get? hdest,
      bind_eq_ok_iff.mpr ⟨value, Memory.read_eq_ok_iff.mpr hvalue, rfl⟩⟩
  | print src =>
    obtain ⟨hop, hsrc, -⟩ := h
    refine bind_eq_ok_iff.mpr ⟨_, Memory.read_eq_ok_iff.mpr hop, ?_⟩
    exact bind_eq_ok_iff.mpr ⟨src, registerOperand_of_get? hsrc, rfl⟩
  | multiply dest src =>
    obtain ⟨hop, hdest, hsrc, -⟩ := h
    refine bind_eq_ok_iff.mpr ⟨_, Memory.read_eq_ok_iff.mpr hop, ?_⟩
    exact bind_eq_ok_iff.mpr ⟨dest, registerOperand_of_get? hdest,
      bind_eq_ok_iff.mpr ⟨src, registerOperand_of_get? hsrc, rfl⟩⟩

/-- A cleared cell is no instruction. -/
theorem decode_of_get?_zero {memory : Memory} {pc : Nat} (h : memory.get? pc = some 0) :
    decode memory pc = .error (.illegalInstruction 0 pc) := by
  unfold decode Memory.read
  rw [h]
  rfl

/-- The byte `0x01` is the halt instruction. -/
theorem decode_of_get?_hlt {memory : Memory} {pc : Nat} (h : memory.get? pc = some 0x01) :
    decode memory pc = .ok .hlt := by
  rw [decode_eq_hlt_iff, h]
  rfl

/-! ### Statements are carried out -/

/-- Setting a register updates the function that reads the registers. -/
theorem RegisterFile.get_set (file : RegisterFile) (r : Register) (value : UInt8) :
    (file.set r value).get = Function.update file.get r value := by
  funext q
  by_cases h : q = r
  · rw [h, get_set_self, Function.update_self]
  · rw [get_set_of_ne h, Function.update_of_ne h]

/-- The product of the machine is the product modulo 256. -/
theorem mul_eq_ofNat_mod (a b : UInt8) : a * b = UInt8.ofNat (a.toNat * b.toNat % 256) := by
  apply UInt8.toNat.inj
  rw [UInt8.toNat_mul, UInt8.toNat_ofNat']
  omega

namespace Stage

variable {c : Stage (List UInt8)} {taken : List UInt8} {e : Meaning}

/-- The registers and the printed values of a stage are those of a meaning, behind what the sink had
taken before. -/
structure Reflects (c : Stage (List UInt8)) (taken : List UInt8) (e : Meaning) : Prop where
  registers_eq : c.machine.registers.get = e.registers
  sink_eq : c.sink = taken ++ e.output

/-- **A statement is carried out by one step.** -/
theorem reflects_next {s : Statement} (hc : c.machine.runState = .running)
    (hcode : c.machine.memory.Holds c.machine.pc s.encode) (h : c.Reflects taken e) :
    c.Retires .collect ∧ (c.next .collect).machine.pc = c.machine.pc + s.encode.length ∧
      (c.next .collect).Reflects taken (s.execute e) := by
  have hd := Statement.decode_of_holds hcode
  obtain ⟨hregisters, hsink⟩ := h
  cases s with
  | load dest value =>
    have hstep : c.machine.step .collect c.sink = _ := Machine.step_ldi hc hd
    unfold Retires next step
    rw [hstep]
    refine ⟨⟨_, _, rfl⟩, rfl, ?_, hsink⟩
    rw [Statement.execute, ← hregisters]
    exact RegisterFile.get_set _ _ _
  | print src =>
    have hstep : c.machine.step .collect c.sink = _ := Machine.step_prn_accepted hc hd rfl
    unfold Retires next step
    rw [hstep]
    refine ⟨⟨_, _, rfl⟩, rfl, hregisters, ?_⟩
    -- the value is the register's before the step, which printing leaves as it is
    change c.sink ++ [_] = taken ++ (e.output ++ [_])
    rw [hsink, hregisters, List.append_assoc]
  | multiply dest src =>
    have hstep : c.machine.step .collect c.sink = _ := Machine.step_mul hc hd
    unfold Retires next step
    rw [hstep]
    refine ⟨⟨_, _, rfl⟩, rfl, ?_, hsink⟩
    rw [Statement.execute, ← hregisters, ← mul_eq_ofNat_mod]
    exact RegisterFile.get_set _ _ _

/-- **A program is carried out by as many steps as it has statements.** -/
theorem reflects_after {program : List Statement} (hc : c.machine.runState = .running)
    (hcode : c.machine.memory.Holds c.machine.pc (assemble program)) (h : c.Reflects taken e) :
    c.Advances .collect program.length ∧
      (c.after .collect program.length).machine.pc =
        c.machine.pc + (assemble program).length ∧
      (c.after .collect program.length).Reflects taken
        (program.foldl Statement.execute e) := by
  -- the stage and the meaning are both general, since each statement moves them on together
  induction program generalizing c e with
  | nil => exact ⟨advances_zero, rfl, h⟩
  | cons s program ih =>
    rw [assemble_cons] at hcode ⊢
    obtain ⟨hhead, htail⟩ := Memory.holds_append.mp hcode
    obtain ⟨hretires, hpc, hreflects⟩ := reflects_next hc hhead h
    -- the rest of the code is where the program counter is now
    have hnext : (c.next .collect).machine.memory.Holds (c.next .collect).machine.pc
        (assemble program) := by
      rw [hpc, (kept_next _ c).1]
      exact htail
    obtain ⟨length, hadvance⟩ := hretires.advance
    obtain ⟨hadv, hpc', hreflects'⟩ := ih hadvance.runState_eq hnext hreflects
    refine ⟨advances_succ.mpr ⟨hretires, hadv⟩, ?_, hreflects'⟩
    rw [List.length_cons, after_succ, hpc', hpc, List.length_append, Nat.add_assoc]

/-! ### Programs are loaded and run -/

/-- A machine right after loading an image, with a sink that has taken some values before. -/
def loaded (m : Machine) (image taken : List UInt8) : Stage (List UInt8) :=
  ⟨{ m with memory := .ofProgram image }.reset, taken⟩

/-- An image that fits loads, and the machine stands in front of its first byte. -/
theorem load_eq_loaded {m : Machine} {image : List UInt8} (taken : List UInt8)
    (h : image.length ≤ 256) : m.load image = .ok (loaded m image taken).machine :=
  m.load_of_length_le h

/-- A run of a program image: what `run` answers, and what it leaves of the machine and the sink. -/
structure Computes (m : Machine) (image : List UInt8) (program : List Statement)
    (taken : List UInt8) (result : Except Fault RunOutcome) (runState : RunState)
    (start : Machine) : Prop where
  load_eq : m.load image = .ok start
  result_eq : (start.run .collect taken).result = result
  /-- The printed values are those of the meaning, behind what the sink had taken before. -/
  output_eq : (start.run .collect taken).sink = taken ++ (meaning program).output
  registers_eq : ∀ r,
    (start.run .collect taken).machine.registers.get r = (meaning program).registers r
  pc_eq : (start.run .collect taken).machine.pc = (assemble program).length
  runState_eq : (start.run .collect taken).machine.runState = runState
  memory_eq : (start.run .collect taken).machine.memory.toList =
    image ++ List.replicate (256 - image.length) 0
  config_eq : (start.run .collect taken).machine.config = m.config

variable {m : Machine} {image : List UInt8} {program : List Statement}

/-- What is left after loading a program and carrying out its statements. -/
theorem reflects_loaded (m : Machine) (taken : List UInt8)
    (hcode : (Memory.ofProgram image).Holds 0 (assemble program)) :
    (loaded m image taken).Advances .collect program.length ∧
      ((loaded m image taken).after .collect program.length).machine.pc =
        (assemble program).length ∧
      ((loaded m image taken).after .collect program.length).Reflects taken
        (meaning program) := by
  -- loading clears the registers, whatever they held
  have hstart : (loaded m image taken).Reflects taken ⟨fun _ => 0, []⟩ := by
    refine ⟨?_, (List.append_nil taken).symm⟩
    funext r
    exact RegisterFile.get_zero r
  obtain ⟨hadv, hpc, hreflects⟩ := reflects_after (c := loaded m image taken) rfl hcode hstart
  refine ⟨hadv, ?_, hreflects⟩
  rw [hpc]
  exact Nat.zero_add _

/-- The request behind the program ends the run. It changes the run state and nothing else, so the
run leaves what the program leaves. -/
theorem computes_of_next {result : Except Fault RunOutcome} {runState : RunState}
    (hlength : image.length ≤ 256)
    (hcode : (Memory.ofProgram image).Holds 0 (assemble program))
    (hrun : (loaded m image taken).machine.run .collect taken =
      (loaded m image taken).answer .collect (program.length + 1) result)
    (hnext : ((loaded m image taken).after .collect program.length).next .collect =
      ⟨{ ((loaded m image taken).after .collect program.length).machine with runState },
        ((loaded m image taken).after .collect program.length).sink⟩) :
    Computes m image program taken result runState (loaded m image taken).machine := by
  have hmemory : ((loaded m image taken).after .collect program.length).machine.memory =
      .ofProgram image := by
    rw [memory_after]
    rfl
  have hconfig : ((loaded m image taken).after .collect program.length).machine.config =
      m.config := by
    rw [config_after, loaded, Machine.config_reset]
  obtain ⟨-, hpc, hreflects⟩ := reflects_loaded m taken hcode
  -- from here on the run is known, and each field is read off what the program leaves
  rw [answer, after_succ', hnext] at hrun
  exact {
    load_eq := load_eq_loaded taken hlength
    result_eq := by rw [hrun]
    output_eq := by rw [hrun]; exact hreflects.sink_eq
    registers_eq := by rw [hrun]; exact congrFun hreflects.registers_eq
    pc_eq := by rw [hrun]; exact hpc
    runState_eq := by rw [hrun]
    memory_eq := by
      rw [hrun, ← Memory.toList_ofProgram hlength, ← hmemory]
    config_eq := by rw [hrun]; exact hconfig }

/-- Behind the program there is a halt instruction. -/
theorem computes_of_hlt (hlimit : m.config.stepLimit = none) (hlength : image.length ≤ 256)
    (hcode : (Memory.ofProgram image).Holds 0 (assemble program))
    (hhalt : (Memory.ofProgram image).get? (assemble program).length = some 0x01) :
    Computes m image program taken (.ok ⟨program.length, .halted⟩) .halted
      (loaded m image taken).machine := by
  obtain ⟨hadv, hpc, -⟩ := reflects_loaded m taken hcode
  have hrun := runState_after rfl hadv
  -- the program counter has come to the end of the code, where the halt instruction is
  have hend : (((loaded m image taken).after .collect program.length).step .collect).result =
      .ok .halted := by
    rw [step, Machine.step_hlt hrun]
    · rfl
    · rw [hpc, memory_after]
      exact decode_of_get?_hlt hhalt
  refine computes_of_next hlength hcode ?_ (next_of_halted hrun hend)
  refine runLoop_of_halted rfl hadv ?_ (unstopped_never _) hend
  rw [loaded, Machine.config_reset, hlimit]
  intro n hn
  cases hn

/-- Behind the program no instruction can be decoded. -/
theorem computes_of_decode_error (hlimit : m.config.stepLimit = none)
    (hlength : image.length ≤ 256) (hcode : (Memory.ofProgram image).Holds 0 (assemble program))
    {fault : Fault}
    (hfault : decode (.ofProgram image) (assemble program).length = .error fault) :
    Computes m image program taken (.error fault) (.faulted fault)
      (loaded m image taken).machine := by
  obtain ⟨hadv, hpc, -⟩ := reflects_loaded m taken hcode
  have hrun := runState_after rfl hadv
  -- the program counter has come to the end of the code, and the memory is the image still
  have hdecode : decode ((loaded m image taken).after .collect program.length).machine.memory
      ((loaded m image taken).after .collect program.length).machine.pc = .error fault := by
    rw [hpc, memory_after]
    exact hfault
  obtain ⟨hend, hnext⟩ := next_of_decode_error hrun hdecode
  refine computes_of_next hlength hcode ?_ hnext
  refine runLoop_of_error rfl hadv ?_ (unstopped_never _) hend
  rw [loaded, Machine.config_reset, hlimit]
  intro n hn
  cases hn

end Stage

namespace Machine

/-- **Running an assembled program computes what the program means.** Whatever the machine held
before, loading an image that starts with the code of a program and running it without a step limit
carries the program out. A halt instruction behind the code ends the run. Without one, and with
nothing else behind the code, the run goes on into a cleared cell, which is no opcode, or off the end
of memory. -/
theorem run_assembled (m : Machine) (hlimit : m.config.stepLimit = none)
    (program : List Statement) (taken : List UInt8) :
    (∀ junk : List UInt8, (assemble program).length + 1 + junk.length ≤ 256 →
      ∃ start, Stage.Computes m (assemble program ++ [0x01] ++ junk) program taken
        (.ok ⟨program.length, .halted⟩) .halted start) ∧
    ((assemble program).length < 256 →
      ∃ start, Stage.Computes m (assemble program) program taken
        (.error (.illegalInstruction 0 (assemble program).length))
        (.faulted (.illegalInstruction 0 (assemble program).length)) start) ∧
    ((assemble program).length = 256 →
      ∃ start, Stage.Computes m (assemble program) program taken
        (.error (.addressOutOfRange .memory 256))
        (.faulted (.addressOutOfRange .memory 256)) start) := by
  refine ⟨fun junk hjunk => ?_, fun hlt => ?_, fun heq => ?_⟩
  -- a halt instruction behind the code; what follows it is never reached
  · have hlength : (assemble program ++ [0x01] ++ junk).length ≤ 256 := by
      rw [List.length_append, List.length_append]
      exact hjunk
    obtain ⟨hfront, -⟩ := Memory.holds_append.mp (Memory.holds_ofProgram hlength)
    obtain ⟨hcode, hhalt, -⟩ := Memory.holds_append.mp hfront
    rw [Nat.zero_add] at hhalt
    exact ⟨_, Stage.computes_of_hlt hlimit hlength hcode hhalt⟩
  -- a cleared cell behind the code
  · have hcode := Memory.holds_ofProgram (Nat.le_of_lt hlt)
    have hcleared := Memory.get?_ofProgram_of_le (Nat.le_refl _) hlt
    exact ⟨_, Stage.computes_of_decode_error hlimit (Nat.le_of_lt hlt) hcode
      (decode_of_get?_zero hcleared)⟩
  -- the code fills the memory
  · have hcode := Memory.holds_ofProgram (Nat.le_of_eq heq)
    refine ⟨_, Stage.computes_of_decode_error hlimit (Nat.le_of_eq heq) hcode ?_⟩
    rw [heq]
    exact decode_of_le (Nat.le_refl _)

/-- A program that squares 20, where the product wraps around, and prints the result. -/
def squareTwenty : List Statement := [.load 2 20, .multiply 2 2, .print 2]

/-- A machine that stopped in the middle of something else. -/
def leftOver : Machine :=
  { Machine.new with
    memory := .ofProgram [0xFF, 0xFF], registers := ⟨.replicate 8 7⟩, pc := 9
    runState := .faulted (.outputFailed 9) }

/-- A faulted machine with a past computes afresh, in front of each of the three endings. -/
theorem run_assembled_leftOver :
    leftOver.config.stepLimit = none ∧
      (∃ start, Stage.Computes leftOver (assemble squareTwenty ++ [0x01] ++ [0xFF, 0x47])
        squareTwenty [5] (.ok ⟨3, .halted⟩) .halted start) ∧
      (∃ start, Stage.Computes leftOver (assemble squareTwenty) squareTwenty [5]
        (.error (.illegalInstruction 0 8)) (.faulted (.illegalInstruction 0 8)) start) ∧
      ∃ start, Stage.Computes leftOver (assemble (.replicate 128 (.print 0)))
        (.replicate 128 (.print 0)) [5] (.error (.addressOutOfRange .memory 256))
        (.faulted (.addressOutOfRange .memory 256)) start :=
  ⟨rfl, (run_assembled leftOver rfl squareTwenty [5]).1 [0xFF, 0x47] (by decide),
    (run_assembled leftOver rfl squareTwenty [5]).2.1 (by decide),
    (run_assembled leftOver rfl (.replicate 128 (.print 0)) [5]).2.2 (by decide +kernel)⟩

example : (meaning squareTwenty).output = [144] := by decide

end Machine

end LS8
