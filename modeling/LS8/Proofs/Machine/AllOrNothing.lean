import LS8.Proofs.Instruction.Encoding
import LS8.Proofs.Machine.InPlace
import LS8.Proofs.Program.Loading

/-!
# Host requests are all or nothing

Seven requests change a machine without executing it: loading an image or a file, restoring a
snapshot, using the arithmetic unit, writing to the memory in two ways, and committing effects.
`HostRequest` collects them, and `HostRequest.Refused` lists for each of them when it is refused and
with which error. The list is in the order in which the arguments are looked at, so a request that is
wrong in two ways has one entry only.

* A request is refused exactly in these cases, and with this error (`refused_iff`).
* A request that is refused has changed nothing (`unchanged`): neither memory nor registers, and not
  the run state either, so its error is not latched as the fault of an instruction would be.
* This needs no second machine to go back to. The request that works in place, check by check and
  write by write, comes to the same (`in_place`).
-/

namespace LS8

/-- The requests that change a machine without executing it, with the type of the errors that they
can be refused with and the type of their answers. -/
inductive HostRequest (σ : Type) : Type → Type → Type where
  | load (image : List UInt8) : HostRequest σ Fault Unit
  | restore (snapshot : Snapshot) : HostRequest σ Fault Unit
  | alu (op : AluOp) (dest src : Nat) : HostRequest σ Fault UInt8
  | write (address : Nat) (byte : UInt8) : HostRequest σ Fault Unit
  | writeValue (address value : Nat) : HostRequest σ Fault Unit
  | commit (sink : Sink σ) (effect : Effect) (pc : Nat) : HostRequest σ Fault Unit
  | loadFile (path : String) (file : FileText) : HostRequest σ LoadError Unit

namespace HostRequest

variable {σ ε α : Type}

/-- What a request answers and leaves. All but a commit answer with a whole new machine or an error.
-/
def answered : HostRequest σ ε α → Stage σ → Except ε α × Stage σ
  | load image, c => c.settled ((c.machine.load image).map fun m => ((), m))
  | restore snapshot, c => c.settled ((c.machine.restore snapshot).map fun m => ((), m))
  | alu op dest src, c => c.settled (c.machine.alu op dest src)
  | write address byte, c => c.settled ((c.machine.write address byte).map fun m => ((), m))
  | writeValue address value, c =>
    c.settled ((c.machine.writeValue address value).map fun m => ((), m))
  | commit sink effect pc, c =>
    let response := c.machine.commit sink effect pc c.sink
    (response.result, response.stage)
  | loadFile path file, c => c.settled ((c.machine.loadFile path file).map fun m => ((), m))

/-- The request that works in place. -/
def inPlace : HostRequest σ ε α → InPlace σ ε α
  | load image => .load image
  | restore snapshot => .restore snapshot
  | alu op dest src => .alu op dest src
  | write address byte => .write address byte
  | writeValue address value => .writeValue address value
  | commit sink effect pc => .commit sink effect pc
  | loadFile path file => .loadFile path file

/-- **When a request is refused**, and with which error. -/
def Refused : HostRequest σ ε α → Stage σ → ε → Prop
  | load image, _, fault => 256 < image.length ∧ fault = .programTooLarge image.length 256
  | restore snapshot, _, fault =>
    (256 < snapshot.pc ∧ fault =
      .snapshotLayout ("pc " ++ hexLiteral snapshot.pc ++ " past end of memory")) ∨
    (snapshot.pc ≤ 256 ∧ snapshot.memory.length ≠ 256 ∧ fault = .snapshotLayout
      ("memory image is " ++ decimal snapshot.memory.length ++ " bytes, expected 256"))
  | alu op dest src, c, fault =>
    (8 ≤ dest ∧ fault = .addressOutOfRange .registers dest) ∨
    (dest < 8 ∧ 8 ≤ src ∧ fault = .addressOutOfRange .registers src) ∨
    ∃ d s : Register, d.val = dest ∧ s.val = src ∧ op = .div ∧ c.machine.registers.get s = 0 ∧
      fault = .divisionByZero d s
  | write address _, _, fault => 256 ≤ address ∧ fault = .addressOutOfRange .memory address
  | writeValue address value, _, fault =>
    (256 ≤ address ∧ fault = .addressOutOfRange .memory address) ∨
    (address < 256 ∧ 255 < value ∧ fault = .invalidOperand value)
  | commit sink effect pc, c, fault =>
    (∃ value, effect.output = some value ∧ (sink.emit c.sink value).1 = false) ∧
      fault = .outputFailed pc
  | loadFile path file, _, error =>
    (file = .missing ∧ error = { kind := .fileNotFound path }) ∨
    (∃ reason, file = .unreadable reason ∧ error = { kind := .unreadable path reason }) ∨
    ∃ content wrong, file = .text content ∧ parseProgram content = .error wrong ∧
      error = wrong.inFile path

/-- A request either does what it is for or does nothing. -/
structure AllOrNothing (request : HostRequest σ ε α) (c : Stage σ) : Prop where
  refused_iff : ∀ error, (request.answered c).1 = .error error ↔ request.Refused c error
  /-- The whole machine is what it was, the run state with it: no fault is latched. -/
  unchanged : ∀ error, (request.answered c).1 = .error error →
    (request.answered c).2.machine = c.machine
  in_place : request.inPlace.carryOut c = request.answered c

end HostRequest

/-! ### When requests are refused -/

/-- An address is refused exactly if its space has no such address. -/
theorem checkAddress_eq_error_iff {space : AddressSpace} {address size : Nat} {fault : Fault} :
    checkAddress space address size = .error fault ↔
      size ≤ address ∧ fault = .addressOutOfRange space address := by
  unfold checkAddress
  constructor
  · intro h
    split at h
    · cases h
    · next hlt => exact ⟨Nat.le_of_not_lt hlt, (Except.error.inj h).symm⟩
  · rintro ⟨hle, rfl⟩
    rw [if_neg (Nat.not_lt_of_le hle)]

theorem checkAddress_eq_ok_iff {space : AddressSpace} {address checked size : Nat} :
    checkAddress space address size = .ok checked ↔ address < size ∧ address = checked := by
  unfold checkAddress
  constructor
  · intro h
    split at h
    · next hlt => exact ⟨hlt, Except.ok.inj h⟩
    · cases h
  · rintro ⟨hlt, rfl⟩
    rw [if_pos hlt]

/-- A value is refused exactly if it is no byte. -/
theorem byteOperand_eq_error_iff {value : Nat} {fault : Fault} :
    byteOperand value = .error fault ↔ 255 < value ∧ fault = .invalidOperand value := by
  unfold byteOperand
  constructor
  · intro h
    split at h
    · cases h
    · next hlt => exact ⟨Nat.lt_of_succ_le (Nat.le_of_not_lt hlt), (Except.error.inj h).symm⟩
  · rintro ⟨hlarge, rfl⟩
    rw [if_neg (Nat.not_lt_of_le hlarge)]

/-- An index is refused exactly if it is that of no register. -/
theorem Register.select_eq_error_iff {index : Nat} {fault : Fault} :
    Register.select index = .error fault ↔
      8 ≤ index ∧ fault = .addressOutOfRange .registers index := by
  constructor
  · intro h
    -- every index in range is that of a register
    by_cases hlt : index < 8
    · have hselect := Register.select_val ⟨index, hlt⟩
      rw [hselect] at h
      cases h
    · have hle := Nat.le_of_not_lt hlt
      rw [Register.select_of_le hle] at h
      exact ⟨hle, (Except.error.inj h).symm⟩
  · rintro ⟨hle, rfl⟩
    exact Register.select_of_le hle

theorem Register.val_of_select {index : Nat} {r : Register} (h : Register.select index = .ok r) :
    r.val = index := by
  unfold Register.select at h
  split at h
  · next hr =>
    obtain rfl := Except.ok.inj h
    exact Register.ofIndex?_eq_some_iff.mp hr
  · cases h

namespace Memory

variable {memory : Memory} {address : Nat} {fault : Fault}

/-- A write is refused exactly behind the last cell. -/
theorem write_eq_error_iff {byte : UInt8} : memory.write address byte = .error fault ↔
    256 ≤ address ∧ fault = .addressOutOfRange .memory address := by
  constructor
  · intro h
    by_cases hlt : address < 256
    · rw [write_of_lt hlt] at h
      cases h
    · have hle := Nat.le_of_not_lt hlt
      rw [write_of_le hle] at h
      exact ⟨hle, (Except.error.inj h).symm⟩
  · rintro ⟨hle, rfl⟩
    exact write_of_le hle byte

/-- The address is looked at before the value is. -/
theorem writeValue_eq_error_iff {value : Nat} : memory.writeValue address value = .error fault ↔
    (256 ≤ address ∧ fault = .addressOutOfRange .memory address) ∨
      (address < 256 ∧ 255 < value ∧ fault = .invalidOperand value) := by
  unfold writeValue
  rw [bind_eq_error_iff, checkAddress_eq_error_iff]
  refine or_congr Iff.rfl ?_
  constructor
  · rintro ⟨checked, hchecked, hrest⟩
    obtain ⟨hlt, rfl⟩ := checkAddress_eq_ok_iff.mp hchecked
    rcases bind_eq_error_iff.mp hrest with hvalue | ⟨byte, -, hwrite⟩
    · exact ⟨hlt, byteOperand_eq_error_iff.mp hvalue⟩
    · -- the address has been checked already, so writing cannot fail
      rw [write_of_lt hlt] at hwrite
      cases hwrite
  · rintro ⟨hlt, hvalue⟩
    exact ⟨address, checkAddress_eq_ok_iff.mpr ⟨hlt, rfl⟩,
      bind_eq_error_iff.mpr (.inl (byteOperand_eq_error_iff.mpr hvalue))⟩

/-- An image is refused exactly if it is longer than the memory. -/
theorem loadImage_eq_error_iff {image : List UInt8} : loadImage image = .error fault ↔
    256 < image.length ∧ fault = .programTooLarge image.length 256 := by
  unfold loadImage
  constructor
  · intro h
    split at h
    · cases h
    · next hlong => exact ⟨Nat.lt_of_not_le hlong, (Except.error.inj h).symm⟩
  · rintro ⟨hlong, rfl⟩
    exact if_neg (Nat.not_le_of_lt hlong)

end Memory

/-- Division by a register that holds zero is the one operation without a result. -/
theorem RegisterFile.evaluate_eq_error_iff {file : RegisterFile} {op : AluOp} {dest src : Register}
    {fault : Fault} : file.evaluate op dest src = .error fault ↔
      op = .div ∧ file.get src = 0 ∧ fault = .divisionByZero dest src := by
  unfold evaluate
  constructor
  · intro h
    split at h
    · cases h
    · next hnone =>
      obtain ⟨hop, hzero⟩ := AluOp.compute_eq_none_iff.mp hnone
      exact ⟨hop, hzero, (Except.error.inj h).symm⟩
  · rintro ⟨hop, hzero, rfl⟩
    rw [AluOp.compute_eq_none_iff.mpr ⟨hop, hzero⟩]

namespace Machine

variable {m : Machine} {fault : Fault}

/-- A snapshot is refused for its program counter or, if that is in range, for the length of its
memory. -/
theorem restore_eq_error_iff {snapshot : Snapshot} : m.restore snapshot = .error fault ↔
    (256 < snapshot.pc ∧ fault =
      .snapshotLayout ("pc " ++ hexLiteral snapshot.pc ++ " past end of memory")) ∨
    (snapshot.pc ≤ 256 ∧ snapshot.memory.length ≠ 256 ∧ fault = .snapshotLayout
      ("memory image is " ++ decimal snapshot.memory.length ++ " bytes, expected 256")) := by
  constructor
  · intro h
    -- the program counter is checked first, so the memory counts only if it is in range
    by_cases hpc : 256 < snapshot.pc
    · rw [restore_of_far_pc m hpc] at h
      exact .inl ⟨hpc, (Except.error.inj h).symm⟩
    · have hle := Nat.le_of_not_lt hpc
      rw [restore_of_pc_le m hle, map_eq_error_iff] at h
      by_cases hlength : snapshot.memory.length = 256
      · obtain ⟨memory, himage⟩ := Memory.ofImage_of_length hlength
        rw [himage] at h
        cases h
      · rw [Memory.ofImage_of_length_ne hlength] at h
        exact .inr ⟨hle, hlength, (Except.error.inj h).symm⟩
  · rintro (⟨hpc, rfl⟩ | ⟨hle, hlength, rfl⟩)
    · exact restore_of_far_pc m hpc
    · rw [restore_of_pc_le m hle, Memory.ofImage_of_length_ne hlength]
      rfl

/-- The destination is looked at first, then the source, and the registers last of all. -/
theorem alu_eq_error_iff {op : AluOp} {dest src : Nat} : m.alu op dest src = .error fault ↔
    (8 ≤ dest ∧ fault = .addressOutOfRange .registers dest) ∨
    (dest < 8 ∧ 8 ≤ src ∧ fault = .addressOutOfRange .registers src) ∨
    ∃ d s : Register, d.val = dest ∧ s.val = src ∧ op = .div ∧ m.registers.get s = 0 ∧
      fault = .divisionByZero d s := by
  unfold alu
  rw [bind_eq_error_iff, Register.select_eq_error_iff]
  refine or_congr Iff.rfl ?_
  constructor
  · rintro ⟨d, hd, hrest⟩
    obtain rfl := Register.val_of_select hd
    -- the destination is there, and what fails is the source or the computation
    rcases bind_eq_error_iff.mp hrest with hsrc | ⟨s, hs, hcomputed⟩
    · exact .inl ⟨d.isLt, Register.select_eq_error_iff.mp hsrc⟩
    · -- both registers exist, and writing the result cannot fail any more
      obtain rfl := Register.val_of_select hs
      rcases bind_eq_error_iff.mp hcomputed with happly | ⟨answer, -, hwritten⟩
      · obtain ⟨hop, hzero, hfault⟩ :=
          RegisterFile.evaluate_eq_error_iff.mp (map_eq_error_iff.mp happly)
        exact .inr ⟨d, s, rfl, rfl, hop, hzero, hfault⟩
      · cases hwritten
  · rintro (⟨hdest, hsrc⟩ | ⟨d, s, rfl, rfl, hzero⟩)
    · exact ⟨⟨dest, hdest⟩, Register.select_val ⟨dest, hdest⟩,
        bind_eq_error_iff.mpr (.inl (Register.select_eq_error_iff.mpr hsrc))⟩
    · have happly : m.registers.apply op d s = .error fault :=
        map_eq_error_iff.mpr (RegisterFile.evaluate_eq_error_iff.mpr hzero)
      exact ⟨d, Register.select_val d, bind_eq_error_iff.mpr
        (.inr ⟨s, Register.select_val s, bind_eq_error_iff.mpr (.inl happly)⟩)⟩

/-- A commit is refused by its sink, and then it has changed nothing of the machine. -/
theorem commit_eq_error_iff {σ : Type} {sink : Sink σ} {effect : Effect} {pc : Nat} {s : σ} :
    (m.commit sink effect pc s).result = .error fault ↔
      (∃ value, effect.output = some value ∧ (sink.emit s value).1 = false) ∧
        fault = .outputFailed pc := by
  constructor
  · intro h
    -- a commit fails with a refused output and in no other way
    obtain ⟨value, s', houtput, hemit, hanswer⟩ := commit_of_error h
    rw [hanswer] at h
    exact ⟨⟨value, houtput, by rw [hemit]⟩, (Except.error.inj h).symm⟩
  · rintro ⟨⟨value, houtput, hrefused⟩, rfl⟩
    have hemit : sink.emit s value = (false, (sink.emit s value).2) := Prod.ext hrefused rfl
    rw [commit_of_refused houtput hemit]

/-- A commit that is refused leaves the machine as it was. -/
theorem machine_commit_of_error {σ : Type} {sink : Sink σ} {effect : Effect} {pc : Nat} {s : σ}
    (h : (m.commit sink effect pc s).result = .error fault) :
    (m.commit sink effect pc s).machine = m := by
  obtain ⟨value, s', -, -, hanswer⟩ := commit_of_error h
  rw [hanswer]

/-- What is loaded from a file has been parsed, and no machine refuses that. -/
theorem loadFile_eq_error_iff {path : String} {file : FileText} {error : LoadError} :
    m.loadFile path file = .error error ↔ parseFile path file = .error error := by
  unfold loadFile
  rw [bind_eq_error_iff]
  constructor
  · rintro (h | ⟨image, himage, h⟩)
    · exact h
    · obtain ⟨content, rfl, hparse⟩ := exists_of_parseFile himage
      rw [m.load_of_parse hparse] at h
      cases h
  · exact .inl

end Machine

namespace Stage

variable {σ ε α : Type} {c : Stage σ} {answer : Except ε (α × Machine)} {error : ε}

/-- Keeping what an answer leaves does not change whether it is an error. -/
theorem settled_eq_error_iff : (c.settled answer).1 = .error error ↔ answer = .error error := by
  cases answer with
  | error e =>
    constructor
    · intro h
      rw [Except.error.inj h]
    · intro h
      rw [Except.error.inj h]
      rfl
  | ok p =>
    constructor
    · intro h
      cases h
    · intro h
      cases h

/-- What was answered with an error has left the stage as it was. -/
theorem settled_of_error (h : (c.settled answer).1 = .error error) : (c.settled answer).2 = c := by
  rw [settled_eq_error_iff.mp h]
  rfl

end Stage

namespace HostRequest

variable {σ ε α : Type} (request : HostRequest σ ε α) (c : Stage σ)

/-- **A request is refused exactly for its first failing check.** -/
theorem answered_eq_error_iff {error : ε} :
    (request.answered c).1 = .error error ↔ request.Refused c error := by
  -- every request fails as the operation behind it does, with its own checks
  cases request with
  | load image =>
    exact Stage.settled_eq_error_iff.trans (map_eq_error_iff.trans
      (map_eq_error_iff.trans Memory.loadImage_eq_error_iff))
  | restore snapshot =>
    exact Stage.settled_eq_error_iff.trans (map_eq_error_iff.trans Machine.restore_eq_error_iff)
  | alu op dest src => exact Stage.settled_eq_error_iff.trans Machine.alu_eq_error_iff
  | write address byte =>
    exact Stage.settled_eq_error_iff.trans (map_eq_error_iff.trans
      (map_eq_error_iff.trans Memory.write_eq_error_iff))
  | writeValue address value =>
    exact Stage.settled_eq_error_iff.trans (map_eq_error_iff.trans
      (map_eq_error_iff.trans Memory.writeValue_eq_error_iff))
  | commit sink effect pc => exact Machine.commit_eq_error_iff
  | loadFile path file =>
    exact Stage.settled_eq_error_iff.trans (map_eq_error_iff.trans
      (Machine.loadFile_eq_error_iff.trans parseFile_eq_error_iff))

/-- **A refused request leaves the machine as it was.** -/
theorem machine_answered_of_error {error : ε} (h : (request.answered c).1 = .error error) :
    (request.answered c).2.machine = c.machine := by
  cases request with
  | commit sink effect pc => exact Machine.machine_commit_of_error h
  -- all others answer with a whole machine
  | load image => exact congrArg Stage.machine (Stage.settled_of_error h)
  | restore snapshot => exact congrArg Stage.machine (Stage.settled_of_error h)
  | alu op dest src => exact congrArg Stage.machine (Stage.settled_of_error h)
  | write address byte => exact congrArg Stage.machine (Stage.settled_of_error h)
  | writeValue address value => exact congrArg Stage.machine (Stage.settled_of_error h)
  | loadFile path file => exact congrArg Stage.machine (Stage.settled_of_error h)

/-- **Carried out part by part, a request has its one answer.** No part changes the machine before
the last check. -/
theorem carryOut_inPlace : request.inPlace.carryOut c = request.answered c := by
  cases request with
  | load image => exact InPlace.carryOut_load c image
  | restore snapshot => exact InPlace.carryOut_restore c snapshot
  | alu op dest src => exact InPlace.carryOut_alu c op dest src
  | write address byte => exact InPlace.carryOut_write c address byte
  | writeValue address value => exact InPlace.carryOut_writeValue c address value
  | commit sink effect pc => exact InPlace.carryOut_commit c sink effect pc
  | loadFile path file => exact InPlace.carryOut_loadFile c path file

/-- **Host requests are all or nothing.** Whatever the machine is and whatever is asked of it, a
request is refused exactly for the reasons that its arguments and the state give, with the first of
them as its error, and then it has not changed anything of the machine. -/
theorem requests_all_or_nothing : request.AllOrNothing c where
  refused_iff := fun _ => answered_eq_error_iff request c
  unchanged := fun _ => machine_answered_of_error request c
  in_place := carryOut_inPlace request c

end HostRequest

end LS8
