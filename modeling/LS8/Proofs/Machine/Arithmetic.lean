import LS8.Proofs.Machine.InPlace
import LS8.Proofs.Machine.StraightLine

/-!
# The ways to the arithmetic unit

A host has four ways to combine two registers (`AluPath`). It asks what the result would be, it
applies the operation to a register file, it makes the request by register indices, or it has an
instruction executed and its effects committed. They differ in when they look at the operands and
when they write, which matters where a register is combined with itself or a divisor is zero.

They agree (`Stage.alu_paths_agree`). What they agree on is said over numbers (`AluOp.Answers`): the
sum, the difference and the product modulo 256, and the quotient rounded down, of what the two
registers held before; or the one fault, for a divisor of zero. What they leave is the same up to
what each path is for (`AluPath.left`): evaluating leaves everything, the instruction also moves the
program counter behind itself, and no path touches a register but the destination.

Multiplication is the operation that programs can reach. Its step, which starts from three bytes in
memory, comes to the same registers as the request.
-/

namespace LS8

/-! ### What the unit computes -/

namespace AluOp

/-- An operation on numbers, brought back into the range of a byte. -/
def onNumbers : AluOp → Int → Int → Int
  | add, x, y => (x + y) % 256
  | sub, x, y => (x - y) % 256
  | mul, x, y => (x * y) % 256
  | div, x, y => x / y

/-- **The answer of the arithmetic unit**, for a destination that holds `x` and a source that holds
`y`. There is no result exactly where a number is divided by zero. -/
inductive Answers (op : AluOp) (dest src : Register) (x y : UInt8) : Except Fault UInt8 → Prop
  | value (result : UInt8) (defined : ¬ (op = .div ∧ y = 0))
      (result_eq : (result.toNat : Int) = op.onNumbers x.toNat y.toNat) :
      Answers op dest src x y (.ok result)
  | zeroDivisor (isDiv : op = .div) (isZero : y = 0) :
      Answers op dest src x y (.error (.divisionByZero dest src))

variable {op : AluOp} {x y result : UInt8}

/-- Bytes wrap as numbers do modulo 256. -/
theorem toNat_of_compute (h : op.compute x y = some result) :
    (result.toNat : Int) = op.onNumbers x.toNat y.toNat := by
  -- sums and differences are linear in the bytes, so their remainders are compared as they stand
  cases op with
  | add =>
    obtain rfl := Option.some.inj h
    rw [UInt8.toNat_add, onNumbers]
    omega
  | sub =>
    obtain rfl := Option.some.inj h
    -- the machine adds 256 before it subtracts, and this is enough for a byte
    have hy := y.toNat_lt
    rw [UInt8.toNat_sub, onNumbers]
    omega
  | mul =>
    obtain rfl := Option.some.inj h
    calc ((x * y).toNat : Int)
        = ((x.toNat * y.toNat % 256 : Nat) : Int) := congrArg Nat.cast (UInt8.toNat_mul x y)
      _ = (x.toNat * y.toNat : Int) % 256 := by
          rw [Int.natCast_emod, Int.natCast_mul]
          rfl
  | div =>
    -- a quotient of bytes is a byte again, and needs no remainder
    by_cases hzero : y = 0
    · rw [compute, if_pos hzero] at h
      cases h
    · rw [compute, if_neg hzero] at h
      obtain rfl := Option.some.inj h
      rw [UInt8.toNat_div, onNumbers, Int.natCast_ediv]

end AluOp

/-- Evaluating answers as the arithmetic unit does. -/
theorem RegisterFile.answers_evaluate (file : RegisterFile) (op : AluOp) (dest src : Register) :
    op.Answers dest src (file.get dest) (file.get src) (file.evaluate op dest src) := by
  unfold evaluate
  cases h : op.compute (file.get dest) (file.get src) with
  | none =>
    obtain ⟨hop, hzero⟩ := AluOp.compute_eq_none_iff.mp h
    exact .zeroDivisor hop hzero
  | some result =>
    refine .value result (fun hnone => ?_) (AluOp.toNat_of_compute h)
    rw [AluOp.compute_eq_none_iff.mpr hnone] at h
    cases h

/-! ### The paths -/

/-- The ways to have an operation carried out. -/
inductive AluPath where
  | evaluate
  | apply
  /-- By the indices of the two registers. -/
  | request
  /-- By an instruction, executed at the program counter, and a commit of its effects. -/
  | instruction

namespace Stage

variable {σ : Type}

/-- Executes an instruction as if it stood at the program counter, and commits its effects. -/
def execute (sink : Sink σ) (c : Stage σ) (i : Instruction) : Response σ Unit :=
  match i.effect c.machine.registers c.machine.pc with
  | .ok effect => c.machine.commit sink effect c.machine.pc c.sink
  | .error fault => ⟨.error fault, c.machine, c.sink, []⟩

end Stage

namespace AluPath

variable {σ : Type}

/-- What a path answers, and the stage that it leaves. The value of an instruction is the one that
it has left in its destination. -/
def take (sink : Sink σ) (op : AluOp) (dest src : Register) (c : Stage σ) :
    AluPath → Except Fault UInt8 × Stage σ
  | evaluate => (c.machine.registers.evaluate op dest src, c)
  | apply => c.settled ((c.machine.registers.apply op dest src).map fun (value, registers) =>
      (value, { c.machine with registers }))
  | request => c.settled (c.machine.alu op dest.val src.val)
  | instruction =>
    let response := c.execute sink (.alu op dest src)
    (response.result.map fun _ => response.machine.registers.get dest, response.stage)

/-- The stage that a path leaves if it answers with a value, with the registers that it leaves where
it writes to them. -/
def left (c : Stage σ) (registers : RegisterFile) : AluPath → Stage σ
  | evaluate => c
  | apply => { c with machine := { c.machine with registers } }
  | request => { c with machine := { c.machine with registers } }
  | instruction => { c with machine := { c.machine with registers, pc := c.machine.pc + 3 } }

variable {sink : Sink σ} {op : AluOp} {dest src : Register} {c : Stage σ}

/-- The request by indices comes to the registers with these indices. -/
theorem alu_val (m : Machine) (op : AluOp) (dest src : Register) :
    m.alu op dest.val src.val = (m.registers.apply op dest src).map fun (value, registers) =>
      (value, { m with registers }) := by
  unfold Machine.alu
  rw [Register.select_val, Register.select_val]
  change (m.registers.apply op dest src >>= _) = _
  cases m.registers.apply op dest src with
  | error fault => rfl
  | ok answer => rfl

/-- An instruction of the arithmetic unit reads both operands before it has any effect. -/
theorem effect_alu (op : AluOp) (dest src : Register) (registers : RegisterFile) (pc : Nat) :
    (Instruction.alu op dest src).effect registers pc =
      (registers.evaluate op dest src).map fun value =>
        { registerWrite := some (dest, value), nextPc := some (pc + 3) } := by
  simp only [Instruction.effect, Instruction.length_alu]
  cases registers.evaluate op dest src with
  | error fault => rfl
  | ok value => rfl

/-- **What evaluating says, every path does.** Where there is a value, it is written; where there is
none, everything stays. -/
theorem take_eq (path : AluPath) : path.take sink op dest src c =
    match c.machine.registers.evaluate op dest src with
    | .ok value => (.ok value, path.left c (c.machine.registers.set dest value))
    | .error fault => (.error fault, c) := by
  cases path with
  | evaluate =>
    rw [take]
    cases c.machine.registers.evaluate op dest src with
    | error fault => rfl
    | ok value => rfl
  | apply =>
    rw [take, RegisterFile.apply]
    cases c.machine.registers.evaluate op dest src with
    | error fault => rfl
    | ok value => rfl
  | request =>
    rw [take, alu_val, RegisterFile.apply]
    cases c.machine.registers.evaluate op dest src with
    | error fault => rfl
    | ok value => rfl
  | instruction =>
    unfold take Stage.execute
    rw [effect_alu]
    cases c.machine.registers.evaluate op dest src with
    | error fault => rfl
    | ok value =>
      -- the commit has nothing to print, so it cannot fail, and the result is read back
      refine Prod.ext ?_ rfl
      show Except.ok ((c.machine.registers.set dest value).get dest) = .ok value
      rw [RegisterFile.get_set_self]

end AluPath

namespace Stage

variable {σ : Type}

/-- What the paths to the arithmetic unit have in common. -/
structure PathsAgree (sink : Sink σ) (c : Stage σ) (op : AluOp) (dest src : Register)
    (answer : Except Fault UInt8) : Prop where
  answers : op.Answers dest src (c.machine.registers.get dest) (c.machine.registers.get src) answer
  /-- Each path answers with the value, and those that write leave the same registers. -/
  of_value : ∀ value, answer = .ok value → ∃ registers : RegisterFile,
    registers.get dest = value ∧
      (∀ r, r ≠ dest → registers.get r = c.machine.registers.get r) ∧
      ∀ path : AluPath, path.take sink op dest src c = (.ok value, path.left c registers)
  /-- Each path answers with the fault, and leaves everything as it was. -/
  of_fault : ∀ fault, answer = .error fault →
    ∀ path : AluPath, path.take sink op dest src c = (.error fault, c)

/-- **All paths agree with the arithmetic of the register file.** -/
theorem pathsAgree_evaluate (sink : Sink σ) (c : Stage σ) (op : AluOp) (dest src : Register) :
    PathsAgree sink c op dest src (c.machine.registers.evaluate op dest src) where
  answers := c.machine.registers.answers_evaluate op dest src
  of_value := by
    intro value h
    refine ⟨c.machine.registers.set dest value, RegisterFile.get_set_self _ _ _,
      fun r hr => RegisterFile.get_set_of_ne hr, fun path => ?_⟩
    rw [AluPath.take_eq, h]
  of_fault := by
    intro fault h path
    rw [AluPath.take_eq, h]

/-- **All paths to the arithmetic unit agree**, whatever state the machine is in and wherever its
program counter is. The last part is the path of a program: a multiplication in memory comes to the
registers of the request. Its three bytes are in memory, so the program counter is 253 at most. -/
theorem alu_paths_agree (sink : Sink σ) (c : Stage σ) (op : AluOp) (dest src : Register) :
    (∃ answer, PathsAgree sink c op dest src answer) ∧
    (c.machine.runState = .running →
      c.machine.memory.Holds c.machine.pc [0xA2, UInt8.ofNat dest.val, UInt8.ofNat src.val] →
      (c.step sink).result = .ok (.retired c.machine.pc 3) ∧
        (c.step sink).machine.registers =
          (AluPath.request.take sink .mul dest src c).2.machine.registers) := by
  refine ⟨⟨_, pathsAgree_evaluate sink c op dest src⟩, fun hc hcode => ?_⟩
  -- the three bytes are the code of a multiplication
  have hdecode : decode c.machine.memory c.machine.pc = .ok (.alu .mul dest src) :=
    Statement.decode_of_holds (s := .multiply dest src) hcode
  have hevaluate : c.machine.registers.evaluate .mul dest src =
      .ok (c.machine.registers.get dest * c.machine.registers.get src) := rfl
  rw [step, Machine.step_mul hc hdecode, AluPath.take_eq, hevaluate]
  exact ⟨rfl, rfl⟩

/-- A machine at its last three cells, which square a register. -/
def squaresLast : Stage (List UInt8) :=
  ⟨{ Machine.new with
      memory := ⟨(List.replicate 253 (0 : UInt8) ++ [0xA2, 7, 7]).toArray, by
        rw [List.size_toArray, List.length_append, List.length_replicate]
        rfl⟩
      registers := RegisterFile.zero.set (Fin.last 7) 20
      pc := 253 }, []⟩

/-- A multiplication of the last register by itself, in the last cells of the memory. -/
theorem alu_paths_agree_squaresLast :
    squaresLast.machine.runState = .running ∧
      squaresLast.machine.memory.Holds 253 [0xA2, 7, 7] ∧
      (∃ answer, PathsAgree .collect squaresLast .mul (Fin.last 7) (Fin.last 7) answer) ∧
      (squaresLast.step .collect).machine.registers =
        (AluPath.request.take .collect .mul (Fin.last 7) (Fin.last 7)
          squaresLast).2.machine.registers := by
  have hcode : squaresLast.machine.memory.Holds 253 [0xA2, 7, 7] :=
    ⟨by decide +kernel, by decide +kernel, by decide +kernel, trivial⟩
  obtain ⟨hagree, hstep⟩ := alu_paths_agree .collect squaresLast .mul (Fin.last 7) (Fin.last 7)
  exact ⟨rfl, hcode, hagree, (hstep rfl hcode).2⟩

end Stage

end LS8
