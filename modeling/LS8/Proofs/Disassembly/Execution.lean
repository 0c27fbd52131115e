import LS8.Proofs.Disassembly.Listing
import LS8.Proofs.Instruction.Refusal
import LS8.Proofs.Machine.Course

/-!
# Listings tell what runs

A listing and an execution read the same bytes for different ends, and they agree on them. Swept
from the program counter of a machine, the rows up to the first one that ends a run
(`DisassemblyRow.endsRun`) are the instructions that the machine retires, one after another, and the
row there tells how the run ends (`Stage.run_foretold`).

That a row is an instruction means that decoding succeeded at its address, and so does a step, unless
the sink refuses the value of a print instruction. This is why the sink has to accept everything:
nothing else can fail behind the decoder. The registers are not in the listing, and no fault depends
on them.
-/

namespace LS8

/-! ### Rows that end a run -/

/-- A row that ends a run: it is no instruction, or the halt instruction. -/
def DisassemblyRow.endsRun (row : DisassemblyRow) : Bool :=
  row.isIllegal || row.mnemonic == Opcode.hlt.mnemonic

/-- Among the rows of instructions, only that of the halt instruction ends a run. -/
theorem endsRun_ofInstruction_iff {address : Nat} {i : Instruction} :
    (DisassemblyRow.ofInstruction address i).endsRun = true ↔ i = .hlt := by
  have hmnemonic : (DisassemblyRow.ofInstruction address i).endsRun =
      (i.opcode.mnemonic == Opcode.hlt.mnemonic) := rfl
  rw [hmnemonic]
  constructor
  · intro h
    cases i with
    | hlt => rfl
    | ldi dest value => cases h
    | prn src => cases h
    | alu op dest src => cases h
  · rintro rfl
    rfl

/-- What a row without an instruction shows of a fault. Behind its byte stands a note, which is the
message of the fault, unless the byte is no opcode at all. -/
structure ShowsFault (row : DisassemblyRow) (byte : UInt8) (note : String) (fault : Fault) :
    Prop where
  operands_eq : row.operands = hexLiteral byte.toNat ++ " ; " ++ note
  illegal_iff : note = "ILLEGAL" ↔ ∃ opcode pc, fault = .illegalInstruction opcode pc
  illegal_eq : note = "ILLEGAL" → fault = .illegalInstruction byte row.address
  message_eq : note ≠ "ILLEGAL" → note = fault.message

/-- A text that ends like the message of an access out of bounds is too long for the note on an
illegal byte. -/
theorem outOfRange_ne_illegal (text : String) : text ++ " out of range" ≠ "ILLEGAL" := by
  intro h
  have htail : " out of range".length = 13 := by decide
  have hillegal : "ILLEGAL".length = 7 := by decide
  have hlength := congrArg String.length h
  rw [String.length_append, htail, hillegal] at hlength
  omega

/-- **The row of a byte shows why nothing is decoded there.** -/
theorem showsFault_ofFault {memory : Memory} {address : Nat} {byte : UInt8} {fault : Fault}
    (hbyte : memory.get? address = some byte) (hdecode : decode memory address = .error fault) :
    ShowsFault (.ofFault address byte fault) byte (DisassemblyRow.note fault) fault := by
  rcases error_of_decode hdecode with ⟨opcode, hopcode, rfl⟩ | ⟨space, index, -, rfl⟩
  · obtain rfl := Option.some.inj (hbyte.symm.trans hopcode)
    exact {
      operands_eq := rfl
      illegal_iff := ⟨fun _ => ⟨byte, address, rfl⟩, fun _ => rfl⟩
      illegal_eq := fun _ => rfl
      message_eq := fun h => absurd rfl h }
  -- an address or an index out of range is no illegal instruction, and its message says so
  · have hmessage : (Fault.addressOutOfRange space index).message =
        space.noun ++ " address " ++ hexLiteral index ++ " out of range" := rfl
    have hne : (Fault.addressOutOfRange space index).message ≠ "ILLEGAL" := by
      rw [hmessage]
      exact outOfRange_ne_illegal _
    exact {
      operands_eq := rfl
      illegal_iff := by
        refine ⟨fun h => absurd h hne, ?_⟩
        rintro ⟨opcode, pc, h⟩
        cases h
      illegal_eq := fun h => absurd h hne
      message_eq := fun _ => rfl }

/-! ### One row and one step -/

/-- A sink that refuses no value in any state. -/
def Sink.AcceptsEverything {σ : Type} (sink : Sink σ) : Prop :=
  ∀ s value, (sink.emit s value).1 = true

/-- The instruction that an answer reports as retired: its address and its length. -/
def Response.retired? {σ : Type} (r : Response σ StepOutcome) : Option (Nat × Nat) :=
  match r.result with
  | .ok (.retired pc length) => some (pc, length)
  | .ok .halted => none
  | .error _ => none

namespace Stage

variable {σ : Type} {sink : Sink σ} {c : Stage σ}

/-- The instructions that the first `n` step requests retire, in order. -/
def retirements (sink : Sink σ) (c : Stage σ) (n : Nat) : List (Nat × Nat) :=
  (c.path sink n).filterMap fun d => (d.step sink).retired?

/-- The retirements of a stretch, counted from its start. -/
theorem retirements_succ (n : Nat) : c.retirements sink (n + 1) =
    (c.step sink).retired?.toList ++ (c.next sink).retirements sink n := by
  rw [retirements, path_succ, List.filterMap_cons]
  cases (c.step sink).retired? with
  | none => rfl
  | some retired => rfl

/-- The same stretch, counted from its end. -/
theorem retirements_succ' (n : Nat) : c.retirements sink (n + 1) =
    c.retirements sink n ++ ((c.after sink n).step sink).retired?.toList := by
  rw [retirements, path_succ', List.filterMap_append]
  cases h : ((c.after sink n).step sink).retired? with
  | none => simp [retirements, h]
  | some retired => simp [retirements, h]

/-- Nothing can fail behind the decoder if the sink accepts everything. -/
theorem step_of_decode (haccepts : sink.AcceptsEverything) (hc : c.machine.runState = .running)
    {i : Instruction} (hd : decode c.machine.memory c.machine.pc = .ok i) (hi : i ≠ .hlt) :
    (c.step sink).result = .ok (.retired c.machine.pc i.length) := by
  rw [step]
  -- of the six ways to go, `hd` leaves the one of `i`, and `haccepts` excludes the refusal
  cases Machine.step_cases sink c.sink hc with
  | undecodable fault hd' hstep =>
    rw [hd'] at hd
    cases hd
  | hlt hd' hstep =>
    rw [hd'] at hd
    exact absurd (Except.ok.inj hd).symm hi
  | ldi dest value hd' hstep =>
    obtain rfl := Except.ok.inj (hd'.symm.trans hd)
    rw [hstep, Instruction.length_ldi]
    rfl
  | mul dest src hd' hstep =>
    obtain rfl := Except.ok.inj (hd'.symm.trans hd)
    rw [hstep, Instruction.length_alu]
    rfl
  | accepted src s' hd' hs hstep =>
    obtain rfl := Except.ok.inj (hd'.symm.trans hd)
    rw [hstep, Instruction.length_prn]
    rfl
  | refused src s' hd' hs hstep =>
    have htaken := haccepts c.sink (c.machine.registers.get src)
    rw [hs] at htaken
    cases htaken

/-- **A row foretells a step.** Where a row does not end a run, the step there retires the
instruction of the row. -/
theorem step_of_row (haccepts : sink.AcceptsEverything) (hc : c.machine.runState = .running)
    {row : DisassemblyRow} (hrow : disassemble c.machine.memory c.machine.pc = some row)
    (hgoes : row.endsRun = false) :
    (c.step sink).result = .ok (.retired row.address row.length) := by
  -- a row that is no instruction ends the run, which `hgoes` excludes
  cases disassemble_cases hrow with
  | instruction i hd hi =>
    rw [hi] at hgoes ⊢
    have hne : i ≠ .hlt := by
      rintro rfl
      cases hgoes
    exact step_of_decode haccepts hc hd hne
  | byte byte fault hbyte hd hi =>
    rw [hi] at hgoes
    cases hgoes

/-! ### A listing and a run -/

/-- **The sweep.** As long as no row ends the run, one row after another is retired, and the listing
goes on where the machine does. -/
theorem retirements_of_listing (haccepts : sink.AcceptsEverything)
    (hc : c.machine.runState = .running) {rows rest : List DisassemblyRow}
    (hlisting : c.machine.memory.listing c.machine.pc = rows ++ rest)
    (hgoes : ∀ row ∈ rows, row.endsRun = false) :
    c.Advances sink rows.length ∧
      c.retirements sink rows.length = rows.map (fun row => (row.address, row.length)) ∧
      c.machine.memory.listing (c.after sink rows.length).machine.pc = rest := by
  induction rows generalizing c with
  | nil => exact ⟨advances_zero, rfl, hlisting⟩
  | cons row rows ih =>
    obtain ⟨hrow, htail⟩ := Memory.disassemble_of_listing hlisting
    have hstep := step_of_row haccepts hc hrow (hgoes row List.mem_cons_self)
    have hretires : c.Retires sink := ⟨row.address, row.length, hstep⟩
    obtain ⟨-, hadvance⟩ := Machine.advance_of_retired hstep
    have hmemory : (c.next sink).machine.memory = c.machine.memory := hadvance.memory_eq
    have hpc : (c.next sink).machine.pc = c.machine.pc + row.length := hadvance.pc_eq
    rw [← hmemory, ← hpc] at htail
    -- the listing behind the row is that of the machine behind the step
    obtain ⟨hadvances, hretired, hrest⟩ := ih hadvance.runState_eq htail
      fun r hr => hgoes r (List.mem_cons_of_mem row hr)
    refine ⟨advances_succ.mpr ⟨hretires, hadvances⟩, ?_, ?_⟩
    · have hfirst : (c.step sink).retired? = some (row.address, row.length) := by
        rw [Response.retired?, hstep]
      rw [List.length_cons, retirements_succ, hfirst, hretired]
      rfl
    · rw [← hmemory]
      exact hrest

/-- A request that retires nothing adds nothing. -/
theorem retirements_of_stuck {n : Nat} (h : ¬ (c.after sink n).Retires sink) :
    c.retirements sink (n + 1) = c.retirements sink n := by
  have hnone : ((c.after sink n).step sink).retired? = none := by
    rcases halted_or_error_of_stuck h with hend | ⟨fault, hend⟩
    · rw [Response.retired?, hend]
    · rw [Response.retired?, hend]
  rw [retirements_succ', hnone, Option.toList_none, List.append_nil]

/-- How the rows of a sweep end, with the answer of the step behind them: in front of the halt
instruction, in front of a byte that is no instruction, or at the end of the memory. -/
inductive SweepEnd (d : Stage σ) : Option DisassemblyRow → Except Fault StepOutcome → Prop
  | halt (row : DisassemblyRow) (address_eq : row.address = d.machine.pc)
      (mnemonic_eq : row.mnemonic = "HLT") (legal : row.isIllegal = false) :
      SweepEnd d (some row) (.ok .halted)
  | illegal (row : DisassemblyRow) (address_eq : row.address = d.machine.pc)
      (mnemonic_ne : row.mnemonic ≠ "HLT") (byte : UInt8) (note : String) (fault : Fault)
      (fetched : d.machine.memory.get? row.address = some byte)
      (shows : ShowsFault row byte note fault) : SweepEnd d (some row) (.error fault)
  | memoryEnd (pc_eq : d.machine.pc = 256) :
      SweepEnd d none (.error (.addressOutOfRange .memory 256))

/-- **The step behind a sweep** does what the first row that ends a run says. -/
theorem sweepEnd_of_listing (hc : c.machine.runState = .running) (hpc : c.machine.pc ≤ 256)
    (hends : ∀ row ∈ (c.machine.memory.listing c.machine.pc).head?, row.endsRun = true) :
    SweepEnd c (c.machine.memory.listing c.machine.pc).head? (c.step sink).result := by
  cases hrow : disassemble c.machine.memory c.machine.pc with
  | none =>
    -- a row is missing only behind the last cell, where nothing can be fetched
    have hpc : c.machine.pc = 256 := Nat.le_antisymm hpc (disassemble_eq_none_iff.mp hrow)
    have hle : 256 ≤ c.machine.pc := Nat.le_of_eq hpc.symm
    have hdecode : decode c.machine.memory c.machine.pc =
        .error (.addressOutOfRange .memory c.machine.pc) := decode_of_le hle
    rw [Memory.listing_of_le hle, (next_of_decode_error hc hdecode).1, hpc]
    exact .memoryEnd hpc
  | some row =>
    rw [Memory.listing_of_disassemble hrow] at hends ⊢
    have hrowEnds := hends row rfl
    have haddress := (disassemble_bounds hrow).1
    cases disassemble_cases hrow with
    | instruction i hd hi =>
      -- the halt instruction is the only one whose row ends a run
      obtain rfl : i = .hlt := by
        rw [hi] at hrowEnds
        exact endsRun_ofInstruction_iff.mp hrowEnds
      have hhalt : (c.step sink).result = .ok .halted := by
        rw [step, Machine.step_hlt hc hd]
        rfl
      rw [hhalt]
      exact .halt row haddress (by rw [hi]; rfl) (by rw [hi]; rfl)
    | byte byte fault hbyte hd hi =>
      have hmnemonic : row.mnemonic ≠ "HLT" := by
        have hbyteWord : ".byte" ≠ "HLT" := by decide
        rw [hi]
        exact hbyteWord
      rw [(next_of_decode_error hc hd).1]
      have hshows := showsFault_ofFault hbyte hd
      rw [← hi] at hshows
      rw [← haddress] at hbyte
      exact .illegal row haddress hmnemonic byte (DisassemblyRow.note fault) fault hbyte hshows

namespace SweepEnd

variable {last : Option DisassemblyRow} {result : Except Fault StepOutcome}

/-- The run stops at the address of the row that ends it, or behind the last cell. -/
theorem pc_eq (h : SweepEnd c last result) :
    c.machine.pc = (last.map (·.address)).getD 256 := by
  cases h with
  | halt row haddress => exact haddress.symm
  | illegal row haddress => exact haddress.symm
  | memoryEnd hpc => exact hpc

/-- Whatever ends a sweep retires no instruction. -/
theorem stuck (h : SweepEnd c last result) (hresult : (c.step sink).result = result) :
    ¬ c.Retires sink := by
  cases h with
  | halt => exact stuck_of_halted hresult
  | illegal => exact stuck_of_error hresult
  | memoryEnd => exact stuck_of_error hresult

/-- The step behind a sweep halts the machine exactly at the halt instruction. -/
theorem ok_iff (h : SweepEnd c last result) :
    (∃ outcome, result = .ok outcome) ↔ ∃ row ∈ last, row.mnemonic = "HLT" := by
  -- the last row, if there is one, is a halt instruction or it is illegal
  cases h with
  | halt row _ hmnemonic => exact ⟨fun _ => ⟨row, rfl, hmnemonic⟩, fun _ => ⟨.halted, rfl⟩⟩
  | illegal row _ hmnemonic =>
    constructor
    · rintro ⟨outcome, h⟩
      cases h
    · rintro ⟨r, hr, hhlt⟩
      obtain rfl := Option.some.inj hr
      exact absurd hhlt hmnemonic
  | memoryEnd =>
    constructor
    · rintro ⟨outcome, h⟩
      cases h
    · rintro ⟨r, hr, -⟩
      cases hr

/-- A row of a byte that is no instruction foretells the fault, with its words. -/
theorem fault_of_illegal (h : SweepEnd c last result) {row : DisassemblyRow} (hrow : row ∈ last)
    (hillegal : row.isIllegal = true) : ∃ byte note fault,
      c.machine.memory.get? row.address = some byte ∧ ShowsFault row byte note fault ∧
        result = .error fault := by
  cases h with
  | halt r _ _ hlegal =>
    obtain rfl := Option.some.inj hrow
    rw [hlegal] at hillegal
    cases hillegal
  | illegal r _ _ byte note fault hbyte hshows =>
    obtain rfl := Option.some.inj hrow
    exact ⟨byte, note, fault, hbyte, hshows, rfl⟩
  | memoryEnd => cases hrow

/-- A sweep without a last row has run into the end of the memory. -/
theorem fault_of_end (h : SweepEnd c none result) :
    result = .error (.addressOutOfRange .memory 256) := by
  cases h
  rfl

end SweepEnd

/-- A run without a limit makes one request behind the instructions that it retires, and reports
what that one answers. -/
theorem run_of_stuck (hc : c.machine.runState = .running)
    (hlimit : c.machine.config.stepLimit = none) {n : Nat} (hadvances : c.Advances sink n)
    (hstuck : ¬ (c.after sink n).Retires sink) :
    c.run sink = c.answer sink (n + 1)
      (((c.after sink n).step sink).result.map fun _ => ⟨n, .halted⟩) := by
  exact runLoop_of_stuck hc hadvances (by simp [hlimit]) (unstopped_never _) (by simp [hlimit])
    hstuck

/-- **What a listing foretells of a run.** `rows` are the rows in front of the first one that ends a
run, and `last` is that one, if the listing has it. -/
structure Foretold (sink : Sink σ) (c : Stage σ) (rows : List DisassemblyRow)
    (last : Option DisassemblyRow) : Prop where
  /-- The run makes one request for each row, and one more. -/
  answer_eq : c.run sink = c.answer sink (rows.length + 1) (c.run sink).result
  retirements_eq : c.retirements sink (rows.length + 1) =
    rows.map fun row => (row.address, row.length)
  pc_eq : (c.run sink).machine.pc = (last.map (·.address)).getD 256
  halted_iff : (c.run sink).result = .ok ⟨rows.length, .halted⟩ ↔
    ∃ row ∈ last, row.mnemonic = "HLT"
  /-- A run that does not fault has halted. -/
  halted_of_ok : ∀ outcome, (c.run sink).result = .ok outcome → outcome = ⟨rows.length, .halted⟩
  fault_of_illegal : ∀ row ∈ last, row.isIllegal = true → ∃ byte note fault,
    c.machine.memory.get? row.address = some byte ∧ ShowsFault row byte note fault ∧
      (c.run sink).result = .error fault
  fault_of_end : last = none → (c.run sink).result = .error (.addressOutOfRange .memory 256)

/-- The run that a sweep foretells: it goes through the rows and ends with the step behind them. -/
theorem foretold_of_sweepEnd (hc : c.machine.runState = .running)
    (hlimit : c.machine.config.stepLimit = none) {rows : List DisassemblyRow}
    {last : Option DisassemblyRow} (hadvances : c.Advances sink rows.length)
    (hretired : c.retirements sink rows.length = rows.map fun row => (row.address, row.length))
    (hend : SweepEnd (c.after sink rows.length) last
      ((c.after sink rows.length).step sink).result) : Foretold sink c rows last := by
  have hstuck := hend.stuck rfl
  have hanswer := run_of_stuck hc hlimit hadvances hstuck
  -- the run reports what its last request answers, and each field is read off that answer
  have hresult : (c.run sink).result =
      ((c.after sink rows.length).step sink).result.map fun _ => ⟨rows.length, .halted⟩ := by
    rw [hanswer]
    rfl
  exact {
    answer_eq := by rw [hresult]; exact hanswer
    retirements_eq := by rw [retirements_of_stuck hstuck, hretired]
    pc_eq := by
      rw [hanswer, answer, after_succ']
      exact (pc_next_of_stuck (runState_after hc hadvances) hstuck).trans hend.pc_eq
    halted_iff := by
      rw [hresult, map_eq_ok_iff, ← hend.ok_iff]
      simp only [and_true]
    halted_of_ok := by
      intro outcome h
      rw [hresult] at h
      obtain ⟨-, -, rfl⟩ := map_eq_ok_iff.mp h
      rfl
    fault_of_illegal := by
      intro row hrow hillegal
      obtain ⟨byte, note, fault, hbyte, hshows, hfault⟩ := hend.fault_of_illegal hrow hillegal
      rw [memory_after] at hbyte
      exact ⟨byte, note, fault, hbyte, hshows, by rw [hresult, hfault]; rfl⟩
    fault_of_end := by
      rintro rfl
      rw [hresult, hend.fault_of_end]
      rfl }

/-- **Listings tell what runs.** A running machine whose program counter is not past the end of the
memory, run without a limit and with a sink that accepts everything, retires the instructions of the
listing from its program counter on, up to the first row that ends a run, and ends as that row
says. -/
theorem run_foretold (sink : Sink σ) (c : Stage σ) (haccepts : sink.AcceptsEverything)
    (hc : c.machine.runState = .running) (hpc : c.machine.pc ≤ 256)
    (hlimit : c.machine.config.stepLimit = none) :
    Foretold sink c
      ((c.machine.memory.listing c.machine.pc).takeWhile fun row => !row.endsRun)
      ((c.machine.memory.listing c.machine.pc).find? fun row => row.endsRun) := by
  set listing := c.machine.memory.listing c.machine.pc with hlisting
  have hsplit : listing = listing.takeWhile (fun row => !row.endsRun) ++
      listing.dropWhile (fun row => !row.endsRun) := List.takeWhile_append_dropWhile.symm
  have hgoes : ∀ row ∈ listing.takeWhile (fun row => !row.endsRun), row.endsRun = false := by
    intro row hrow
    have h := List.mem_takeWhile_imp hrow
    simpa using h
  obtain ⟨hadvances, hretired, hrest⟩ :=
    retirements_of_listing haccepts hc (hlisting.symm.trans hsplit) hgoes
  refine foretold_of_sweepEnd hc hlimit hadvances hretired ?_
  -- the listing behind the rows is that of the machine behind them
  have hlast : listing.find? (fun row => row.endsRun) =
      ((c.after sink (listing.takeWhile fun row => !row.endsRun).length).machine.memory.listing
        (c.after sink (listing.takeWhile fun row => !row.endsRun).length).machine.pc).head? := by
    rw [memory_after, hrest, List.find?_eq_head?_dropWhile_not]
  rw [hlast]
  refine sweepEnd_of_listing (runState_after hc hadvances) (pc_after_le hpc hadvances) ?_
  rw [← hlast]
  intro row hrow
  exact List.find?_some hrow

/-- A machine that loads a register, prints it, and comes to a byte that is no instruction. -/
def runsIntoData : Stage (List UInt8) :=
  ⟨{ Machine.new with memory := .ofProgram [0x82, 0, 8, 0x47, 0, 0xff] }, []⟩

/-- A program without a halt instruction, which runs into its own data. -/
theorem run_foretold_runsIntoData :
    Sink.collect.AcceptsEverything ∧ runsIntoData.machine.runState = .running ∧
      runsIntoData.machine.pc ≤ 256 ∧ runsIntoData.machine.config.stepLimit = none ∧
      Foretold .collect runsIntoData
        ((runsIntoData.machine.memory.listing runsIntoData.machine.pc).takeWhile
          fun row => !row.endsRun)
        ((runsIntoData.machine.memory.listing runsIntoData.machine.pc).find?
          fun row => row.endsRun) := by
  have haccepts : Sink.collect.AcceptsEverything := fun _ _ => rfl
  have hpc : runsIntoData.machine.pc ≤ 256 := Nat.zero_le 256
  exact ⟨haccepts, rfl, hpc, rfl, run_foretold .collect runsIntoData haccepts rfl hpc rfl⟩

end Stage

end LS8
