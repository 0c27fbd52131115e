import LS8.Proofs.Machine.Snapshot
import LS8.Proofs.Memory.Cells
import LS8.Program.File

/-!
# Requests that work in place

A request in `LS8.Machine.Basic` answers with a whole new machine or with a fault, so its fault never
comes with a machine that is half changed. A host that keeps one machine and changes it piece by
piece has no such protection: what was written in front of a check that fails stays written. `InPlace`
is the setting in which this can go wrong. A request looks at the stage and adjusts it as it goes, and
a failure takes nothing back; copying bytes over the end of the memory shows it.

The requests that a host makes are written out here for this setting, with their checks and their
writes in the order in which they are made. For each of them there is one equation
(`InPlace.carryOut_load` and its companions): carried out in place, it answers what the request on
whole machines answers, and it leaves what that answer says. Behind these equations stands that every
check comes before the first write. Loading is the one request that goes on to check after it has
written, because it copies by checked writes; the comparison of the sizes in front is what keeps
these from failing (`InPlace.carryOut_copy`).
-/

namespace LS8

/-! ### The three ways to commit -/

namespace Machine

variable {σ : Type} {sink : Sink σ} {m : Machine} {effect : Effect} {pc : Nat} {s s' : σ}
variable {value : UInt8}

/-- An effect without output is always applied. -/
theorem commit_of_silent (h : effect.output = none) : m.commit sink effect pc s =
    ⟨.ok (), effect.applyTo m, s, m.traced (effect.events pc)⟩ := by
  unfold commit
  rw [h]

/-- So is one whose value is accepted. -/
theorem commit_of_accepted (h : effect.output = some value) (hs : sink.emit s value = (true, s')) :
    m.commit sink effect pc s =
      ⟨.ok (), effect.applyTo m, s', m.traced (effect.events pc)⟩ := by
  unfold commit
  simp only [h, hs]

/-- A refused value stops the commit in front of everything else. -/
theorem commit_of_refused (h : effect.output = some value) (hs : sink.emit s value = (false, s')) :
    m.commit sink effect pc s = ⟨.error (.outputFailed pc), m, s', []⟩ := by
  unfold commit
  simp only [h, hs]

/-- How a commit goes: there is nothing to print, or the sink accepts the value, or it refuses. -/
inductive CommitCase (sink : Sink σ) (m : Machine) (effect : Effect) (pc : Nat) (s : σ) : Prop
  | silent (output_eq : effect.output = none)
      (answer : m.commit sink effect pc s =
        ⟨.ok (), effect.applyTo m, s, m.traced (effect.events pc)⟩)
  | accepted (value : UInt8) (s' : σ) (output_eq : effect.output = some value)
      (emitted : sink.emit s value = (true, s'))
      (answer : m.commit sink effect pc s =
        ⟨.ok (), effect.applyTo m, s', m.traced (effect.events pc)⟩)
  | refused (value : UInt8) (s' : σ) (output_eq : effect.output = some value)
      (emitted : sink.emit s value = (false, s'))
      (answer : m.commit sink effect pc s = ⟨.error (.outputFailed pc), m, s', []⟩)

/-- **Every commit is one of the three.** -/
theorem commit_cases (sink : Sink σ) (m : Machine) (effect : Effect) (pc : Nat) (s : σ) :
    CommitCase sink m effect pc s := by
  cases houtput : effect.output with
  | none => exact .silent houtput (commit_of_silent houtput)
  | some value =>
    cases hemit : sink.emit s value with
    | mk taken s' =>
      cases taken with
      | true => exact .accepted value s' houtput hemit (commit_of_accepted houtput hemit)
      | false => exact .refused value s' houtput hemit (commit_of_refused houtput hemit)

/-- A commit fails because its value was refused, and then nothing of the machine is different. -/
theorem commit_of_error {fault : Fault} (h : (m.commit sink effect pc s).result = .error fault) :
    ∃ value s', effect.output = some value ∧ sink.emit s value = (false, s') ∧
      m.commit sink effect pc s = ⟨.error (.outputFailed pc), m, s', []⟩ := by
  cases commit_cases sink m effect pc s with
  | silent houtput hanswer =>
    rw [hanswer] at h
    cases h
  | accepted value s' houtput hemit hanswer =>
    rw [hanswer] at h
    cases h
  | refused value s' houtput hemit hanswer => exact ⟨value, s', houtput, hemit, hanswer⟩

end Machine

/-! ### The setting -/

/-- A request that works on a stage in place. It ends with a value or with an error, and what it has
changed before an error stays changed. -/
abbrev InPlace (σ ε : Type) : Type → Type := ExceptT ε (StateM (Stage σ))

namespace InPlace

variable {σ ε ε' α β : Type}

/-- What a request answers, and the stage that it leaves, whatever the answer is. -/
def carryOut (request : InPlace σ ε α) (c : Stage σ) : Except ε α × Stage σ :=
  request.run.run c

/-- Ends the request if a check fails, and goes on with what it gives otherwise. -/
def check (answer : Except ε α) : InPlace σ ε α :=
  MonadExcept.ofExcept answer

/-- The machine as it is now. -/
def look : InPlace σ ε Machine := do
  return (← get).machine

/-- Replaces the machine. -/
def adjust (f : Machine → Machine) : InPlace σ ε Unit :=
  modify fun c => { c with machine := f c.machine }

/-- Offers a value to a sink. The flag says whether it was accepted. -/
def offer (sink : Sink σ) (value : UInt8) : InPlace σ ε Bool := do
  let answer := sink.emit (← get).sink value
  modify fun c => { c with sink := answer.2 }
  return answer.1

/-- Gives other names to the errors of a request. -/
def mapError (f : ε → ε') (request : InPlace σ ε α) : InPlace σ ε' α :=
  ExceptT.adapt f request

/-- Behind a part that has ended well comes the rest, at the stage that this part leaves. Behind a
part that has failed comes nothing, and nothing is taken back. -/
theorem carryOut_bind (request : InPlace σ ε α) (next : α → InPlace σ ε β) (c : Stage σ) :
    (request >>= next).carryOut c = match request.carryOut c with
      | (.ok a, d) => (next a).carryOut d
      | (.error e, d) => (.error e, d) := by
  unfold carryOut ExceptT.run StateT.run
  simp only [bind, ExceptT.bind, ExceptT.mk, StateT.bind]
  cases request c with
  | mk answer d =>
    cases answer with
    | ok a => rfl
    | error e => rfl

/-- Naming the error of a request differently changes neither what it leaves nor when it fails. -/
theorem carryOut_mapError (f : ε → ε') (request : InPlace σ ε α) (c : Stage σ) :
    (mapError f request).carryOut c =
      ((request.carryOut c).1.mapError f, (request.carryOut c).2) := rfl

/-- A check answers and changes nothing. -/
theorem carryOut_check (answer : Except ε α) (c : Stage σ) :
    (check answer : InPlace σ ε α).carryOut c = (answer, c) := by
  cases answer with
  | ok a => rfl
  | error e => rfl

theorem carryOut_offer (sink : Sink σ) (value : UInt8) (c : Stage σ) :
    (offer sink value : InPlace σ ε Bool).carryOut c =
      (.ok (sink.emit c.sink value).1, { c with sink := (sink.emit c.sink value).2 }) := rfl

/-! ### The requests of a host, in place -/

/-- Replaces one memory cell. -/
def write (address : Nat) (byte : UInt8) : InPlace σ Fault Unit := do
  let address ← check (checkAddress .memory address Memory.capacity)
  adjust fun m => { m with memory := m.memory.put address byte }

/-- Replaces one memory cell by a value that may be too wide for it. -/
def writeValue (address value : Nat) : InPlace σ Fault Unit := do
  let address ← check (checkAddress .memory address Memory.capacity)
  let byte ← check (byteOperand value)
  adjust fun m => { m with memory := m.memory.put address byte }

/-- Replaces memory cells one after another. -/
def copy (address : Nat) : List UInt8 → InPlace σ Fault Unit
  | [] => pure ()
  | byte :: bytes => do
    write address byte
    copy (address + 1) bytes

/-- The size of an image, provided that it fits in the memory. -/
def checkSize (image : List UInt8) : Except Fault Unit :=
  if image.length ≤ Memory.capacity then .ok ()
  else .error (.programTooLarge image.length Memory.capacity)

/-- Installs a program image: clears the memory, copies the image to its start and resets. -/
def load (image : List UInt8) : InPlace σ Fault Unit := do
  check (checkSize image)
  adjust fun m => { m with memory := .zero }
  copy 0 image
  adjust Machine.reset

/-- The program counter of a snapshot, provided that it is in range. -/
def checkPc (pc : Nat) : Except Fault Unit :=
  if Memory.capacity < pc then
    .error (.snapshotLayout ("pc " ++ hexLiteral pc ++ " past end of memory"))
  else .ok ()

/-- Replaces the state of the machine by a snapshot, part by part. -/
def restore (snapshot : Snapshot) : InPlace σ Fault Unit := do
  check (checkPc snapshot.pc)
  let memory ← check (Memory.ofImage snapshot.memory)
  adjust fun m => { m with memory }
  adjust fun m => { m with registers := snapshot.registers }
  adjust fun m => { m with pc := snapshot.pc }
  adjust fun m => { m with runState := snapshot.runState }

/-- Applies an operation of the arithmetic unit to two registers and writes its result to the
first. -/
def alu (op : AluOp) (dest src : Nat) : InPlace σ Fault UInt8 := do
  let dest ← check (Register.select dest)
  let src ← check (Register.select src)
  let value ← check ((← look).registers.evaluate op dest src)
  adjust fun m => { m with registers := m.registers.set dest value }
  return value

/-- Hands the value of a print instruction at `pc` to the sink. -/
def print (sink : Sink σ) (pc : Nat) (value : UInt8) : InPlace σ Fault Unit := do
  let accepted ← offer sink value
  check (if accepted then .ok () else .error (.outputFailed pc))

/-- Commits everything but the output: the register, the program counter and the halt. -/
def conclude (effect : Effect) : InPlace σ Fault Unit := do
  effect.registerWrite.forM fun (r, value) =>
    adjust fun m => { m with registers := m.registers.set r value }
  effect.nextPc.forM fun next => adjust fun m => { m with pc := next }
  adjust fun m => { m with runState := if effect.halt then .halted else m.runState }

/-- Commits effects, the output before everything else. -/
def commit (sink : Sink σ) (effect : Effect) (pc : Nat) : InPlace σ Fault Unit := do
  effect.output.forM (print sink pc)
  conclude effect

/-- Loads the program in a file. -/
def loadFile (path : String) (file : FileText) : InPlace σ LoadError Unit := do
  let image ← check (parseFile path file)
  mapError (fun fault => { kind := .machine fault }) (load image)

end InPlace

/-- What comes of a stage by an answer with a new machine: the value and the stage with that machine,
or the error and the same stage. -/
def Stage.settled {σ ε α : Type} (c : Stage σ) : Except ε (α × Machine) → Except ε α × Stage σ
  | .ok (a, m) => (.ok a, { c with machine := m })
  | .error e => (.error e, c)

namespace InPlace

variable {σ : Type} (c : Stage σ)

/-- A write in place changes the memory, or it fails and changes nothing. -/
theorem carryOut_write (address : Nat) (byte : UInt8) :
    (write address byte).carryOut c =
      c.settled ((c.machine.write address byte).map fun m => ((), m)) := by
  unfold write Machine.write
  rw [carryOut_bind, carryOut_check]
  -- both forms check the address first; where it is in range, the write cannot fail any more
  by_cases h : address < 256
  · have hcheck : checkAddress .memory address Memory.capacity = .ok address :=
      checkAddress_of_lt h
    rw [hcheck, Memory.write_of_lt h]
    rfl
  · have hle := Nat.le_of_not_lt h
    have hcheck : checkAddress .memory address Memory.capacity =
        .error (.addressOutOfRange .memory address) := checkAddress_of_le hle
    rw [hcheck, Memory.write_of_le hle]
    rfl

theorem carryOut_writeValue (address value : Nat) :
    (writeValue address value).carryOut c =
      c.settled ((c.machine.writeValue address value).map fun m => ((), m)) := by
  unfold writeValue Machine.writeValue Memory.writeValue
  rw [carryOut_bind, carryOut_check]
  by_cases h : address < 256
  · have hcheck : checkAddress .memory address Memory.capacity = .ok address :=
      checkAddress_of_lt h
    rw [hcheck]
    change (check (byteOperand value) >>= _).carryOut c = c.settled
      (((byteOperand value >>= fun byte => c.machine.memory.write address byte).map _).map _)
    rw [carryOut_bind, carryOut_check]
    -- the address is in range, so what remains to be checked is the value
    cases byteOperand value with
    | error fault => rfl
    | ok byte =>
      change _ = c.settled (((c.machine.memory.write address byte).map _).map _)
      rw [Memory.write_of_lt h]
      rfl
  · have hcheck : checkAddress .memory address Memory.capacity =
        .error (.addressOutOfRange .memory address) := checkAddress_of_le (Nat.le_of_not_lt h)
    rw [hcheck]
    rfl

/-- **Copying goes through** where there is room for all the bytes. -/
theorem carryOut_copy {address : Nat} {bytes : List UInt8} (h : address + bytes.length ≤ 256) :
    (copy address bytes).carryOut c = (.ok (), { c with
      machine := { c.machine with memory := c.machine.memory.putAll address bytes } }) := by
  -- the stage is the one that the bytes in front have left
  induction bytes generalizing address c with
  | nil => rfl
  | cons byte bytes ih =>
    rw [List.length_cons] at h
    have hfirst : address < 256 := by omega
    have hrest : address + 1 + bytes.length ≤ 256 := by omega
    unfold copy
    rw [carryOut_bind, carryOut_write]
    unfold Machine.write
    rw [Memory.write_of_lt hfirst]
    exact ih _ hrest

/-- Where there is not, the first bytes are written all the same. -/
example :
    ((copy 255 [1, 2]).carryOut (⟨Machine.new, 0⟩ : Stage Nat)).1 =
        .error (.addressOutOfRange .memory 256) ∧
      ((copy 255 [1, 2]).carryOut (⟨Machine.new, 0⟩ : Stage Nat)).2.machine.memory.get? 255 =
        some 1 := by
  decide +kernel

/-- Loading in place is loading: its check stands in front of all changes. -/
theorem carryOut_load (image : List UInt8) :
    (load image).carryOut c = c.settled ((c.machine.load image).map fun m => ((), m)) := by
  unfold load checkSize Machine.load Memory.loadImage
  rw [carryOut_bind, carryOut_check]
  by_cases h : image.length ≤ Memory.capacity
  · -- the image fits, so no write of the copy can fail behind the cleared memory
    have hroom : 0 + image.length ≤ 256 := by rwa [Nat.zero_add]
    rw [if_pos h, if_pos h]
    change (copy 0 image >>= fun _ => adjust Machine.reset).carryOut
      { c with machine := { c.machine with memory := .zero } } = _
    rw [carryOut_bind, carryOut_copy _ hroom, Memory.putAll_zero]
    rfl
  · rw [if_neg h, if_neg h]
    rfl

/-- Restoring in place is restoring: both checks stand in front of all changes. -/
theorem carryOut_restore (snapshot : Snapshot) :
    (restore snapshot).carryOut c =
      c.settled ((c.machine.restore snapshot).map fun m => ((), m)) := by
  unfold restore checkPc Machine.restore
  rw [carryOut_bind, carryOut_check]
  by_cases h : Memory.capacity < snapshot.pc
  · rw [if_pos h, if_pos h]
    rfl
  · rw [if_neg h, if_neg h]
    change (check (Memory.ofImage snapshot.memory) >>= _).carryOut c = _
    rw [carryOut_bind, carryOut_check]
    -- both checks are made, and the four parts can be replaced one by one
    cases Memory.ofImage snapshot.memory with
    | error fault => rfl
    | ok memory => rfl

/-- The arithmetic unit in place selects, computes and writes back in this order. -/
theorem carryOut_alu (op : AluOp) (dest src : Nat) :
    (alu op dest src).carryOut c = c.settled (c.machine.alu op dest src) := by
  unfold alu Machine.alu RegisterFile.apply
  -- three checks in a row, each with the registers that the host has left
  rw [carryOut_bind, carryOut_check]
  cases Register.select dest with
  | error fault => rfl
  | ok d =>
    change (check (Register.select src) >>= _).carryOut c = _
    rw [carryOut_bind, carryOut_check]
    cases Register.select src with
    | error fault => rfl
    | ok s =>
      change (check (c.machine.registers.evaluate op d s) >>= _).carryOut c = _
      rw [carryOut_bind, carryOut_check]
      change _ = c.settled (((c.machine.registers.evaluate op d s).map _) >>= _)
      cases c.machine.registers.evaluate op d s with
      | error fault => rfl
      | ok value => rfl

/-- Behind the output nothing can fail. -/
theorem carryOut_conclude (effect : Effect) :
    (conclude effect).carryOut c = (.ok (), { c with machine := effect.applyTo c.machine }) := by
  obtain ⟨output, registerWrite, nextPc, halt⟩ := effect
  -- the register and the program counter are written one after the other, each one if the effect
  -- has it
  cases registerWrite with
  | none =>
    cases nextPc with
    | none => rfl
    | some next => rfl
  | some write =>
    cases nextPc with
    | none => rfl
    | some next => rfl

/-- A refused value leaves only the sink changed. -/
theorem carryOut_print (sink : Sink σ) (pc : Nat) (value : UInt8) :
    (print sink pc value).carryOut c =
      (if (sink.emit c.sink value).1 then .ok () else .error (.outputFailed pc),
        { c with sink := (sink.emit c.sink value).2 }) := by
  unfold print
  rw [carryOut_bind, carryOut_offer]
  exact carryOut_check _ _

/-- **Committing in place** is committing: a value that is refused changes the sink and nothing of
the machine. -/
theorem carryOut_commit (sink : Sink σ) (effect : Effect) (pc : Nat) :
    (commit sink effect pc).carryOut c =
      ((c.machine.commit sink effect pc c.sink).result,
        (c.machine.commit sink effect pc c.sink).stage) := by
  unfold commit
  -- one case for each way to commit: the output comes first in both forms, and only it can fail
  cases Machine.commit_cases sink c.machine effect pc c.sink with
  | silent houtput hanswer =>
    rw [hanswer, houtput]
    change (conclude effect).carryOut c = _
    rw [carryOut_conclude]
    rfl
  | accepted value s houtput hemit hanswer =>
    rw [hanswer, houtput]
    change (print sink pc value >>= fun _ => conclude effect).carryOut c = _
    rw [carryOut_bind, carryOut_print, hemit]
    change (conclude effect).carryOut { c with sink := s } = _
    rw [carryOut_conclude]
    rfl
  | refused value s houtput hemit hanswer =>
    rw [hanswer, houtput]
    change (print sink pc value >>= fun _ => conclude effect).carryOut c = _
    rw [carryOut_bind, carryOut_print, hemit]
    rfl

/-- A file is read and parsed before the machine is touched. -/
theorem carryOut_loadFile (path : String) (file : FileText) :
    (loadFile path file).carryOut c =
      c.settled ((c.machine.loadFile path file).map fun m => ((), m)) := by
  unfold loadFile Machine.loadFile
  rw [carryOut_bind, carryOut_check]
  -- where the file does not parse, neither form touches the machine
  cases parseFile path file with
  | error error => rfl
  | ok image =>
    change (mapError _ (load image)).carryOut c =
      c.settled (((c.machine.load image).mapError _).map _)
    rw [carryOut_mapError, carryOut_load]
    cases c.machine.load image with
    | error fault => rfl
    | ok m => rfl

end InPlace

end LS8
