import LS8.CommandLine.Execute
import LS8.Proofs.Disassembly.Listing
import LS8.Proofs.Instruction.Refusal
import LS8.Proofs.Machine.EventLog
import LS8.Proofs.Machine.FaultCause

/-!
# What standard error can say

Standard error mixes several kinds of lines: the lines of a trace report, the diagnostic of a fault
and the warning of a step limit. Whoever reads the text has to know where a line ends, and whoever
looks for the warning has to know that nothing else looks like it. The lines of a run are made of
fixed words, numerals and names of registers and instructions. None of them contains a line feed, and
none contains a `w`, which the warning starts with (`plain_traceLine`, `Fault.plain_message`). Texts
that come from outside might contain anything, and two kinds of faults quote such texts, but neither
execution nor the disassembler raises them (`Fault.quotesText`).
-/

namespace LS8

/-- The text has no `w` in it. -/
def LacksW (text : String) : Prop :=
  'w' ∉ text.toList

instance (text : String) : Decidable (LacksW text) :=
  inferInstanceAs (Decidable ('w' ∉ text.toList))

/-- The text has no `w` and no line feed in it. -/
structure Plain (text : String) : Prop where
  lacksW : LacksW text
  feed_notMem : '\n' ∉ text.toList

instance (text : String) : Decidable (Plain text) :=
  decidable_of_iff (LacksW text ∧ '\n' ∉ text.toList)
    ⟨fun h => ⟨h.1, h.2⟩, fun h => ⟨h.lacksW, h.feed_notMem⟩⟩

theorem notMem_append {c : Char} {a b : String} (ha : c ∉ a.toList) (hb : c ∉ b.toList) :
    c ∉ (a ++ b).toList := by
  rw [String.toList_append, List.mem_append, not_or]
  exact ⟨ha, hb⟩

/-- Plain texts stay plain when they are put together. -/
theorem Plain.append {a b : String} (ha : Plain a) (hb : Plain b) : Plain (a ++ b) where
  lacksW := notMem_append ha.lacksW hb.lacksW
  feed_notMem := notMem_append ha.feed_notMem hb.feed_notMem

/-! ### Numerals and names -/

/-- So does a text that is put together of any number of them. -/
theorem plain_join {texts : List String} (h : ∀ text ∈ texts, Plain text) :
    Plain (String.join texts) := by
  induction texts with
  | nil => decide
  | cons text texts ih =>
    have hjoin : String.join (text :: texts) = text ++ String.join texts := String.join_cons
    rw [hjoin]
    exact (h text List.mem_cons_self).append (ih fun t ht => h t (List.mem_cons_of_mem text ht))

/-- The digits of numerals are plain, in every base that is used here. -/
theorem plain_of_digits {text : String} (h : ∀ c ∈ text.toList, c ∈ numeralDigits) :
    Plain text where
  lacksW hw := absurd (h 'w' hw) (by decide)
  feed_notMem hfeed := absurd (h '\n' hfeed) (by decide)

theorem plain_decimal (n : Nat) : Plain (decimal n) :=
  plain_of_digits mem_numeralDigits_of_mem_decimal

theorem plain_hexadecimal (width n : Nat) : Plain (hexadecimal width n) :=
  plain_of_digits mem_numeralDigits_of_mem_hexadecimal

theorem plain_hexLiteral (n : Nat) : Plain (hexLiteral n) :=
  Plain.append (by decide) (plain_hexadecimal 2 n)

theorem plain_bitsLiteral (byte : UInt8) : Plain (bitsLiteral byte) :=
  Plain.append (by decide) (plain_of_digits mem_numeralDigits_of_mem_binary)

theorem Register.plain_name (r : Register) : Plain r.name :=
  Plain.append (by decide) (plain_decimal r.val)

/-! ### Faults -/

/-- The faults whose message quotes a text from outside. -/
def Fault.quotesText : Fault → Bool
  | unsupportedOperation _ => true
  | snapshotLayout _ => true
  | _ => false

/-- **The message of a fault is plain** unless it quotes a text from outside. -/
theorem Fault.plain_message {fault : Fault} (h : fault.quotesText = false) :
    Plain fault.message := by
  cases fault with
  | addressOutOfRange space address =>
    have hnoun : Plain space.noun := by
      cases space with
      | memory => decide
      | registers => decide
    exact ((hnoun.append (by decide)).append (plain_hexLiteral address)).append (by decide)
  | invalidOperand value =>
    exact (Plain.append (by decide) (plain_decimal value)).append (by decide)
  | divisionByZero dest src =>
    exact ((Plain.append (by decide) dest.plain_name).append (by decide)).append src.plain_name
  | illegalInstruction opcode pc =>
    exact ((Plain.append (by decide) (plain_bitsLiteral opcode)).append (by decide)).append
      (plain_hexLiteral pc)
  | programTooLarge length capacity =>
    exact (((Plain.append (by decide) (plain_decimal length)).append (by decide)).append
      (plain_decimal capacity)).append (by decide)
  | outputFailed pc => exact Plain.append (by decide) (plain_hexLiteral pc)
  -- these two quote a text, which the hypothesis excludes
  | unsupportedOperation operation => cases h
  | snapshotLayout reason => cases h

/-- The decoder quotes nothing. -/
theorem quotesText_of_decode {memory : Memory} {pc : Nat} {fault : Fault}
    (h : decode memory pc = .error fault) : fault.quotesText = false := by
  cases refused_of_decode h with
  | unfetched _ => rfl
  | unassigned _ _ _ => rfl
  | misnamed _ _ _ _ => rfl
  | cut _ _ _ _ => rfl

/-! ### Rows and frames -/

theorem Opcode.plain_mnemonic (opcode : Opcode) : Plain opcode.mnemonic := by
  cases opcode with
  | hlt => decide
  | ldi => decide
  | prn => decide
  | mul => decide

theorem Instruction.plain_operandText (i : Instruction) : Plain i.operandText := by
  cases i with
  | hlt => decide
  | ldi dest value => exact (dest.plain_name.append (by decide)).append (plain_decimal _)
  | prn src => exact src.plain_name
  | alu op dest src => exact (dest.plain_name.append (by decide)).append src.plain_name

theorem DisassemblyRow.plain_note {fault : Fault} (h : fault.quotesText = false) :
    Plain (note fault) := by
  unfold note
  split
  · decide
  · exact Fault.plain_message h

/-- The rows of a disassembly are plain, those of bytes that are no instruction included. -/
theorem DisassemblyRow.plain_text {memory : Memory} {address : Nat} {row : DisassemblyRow}
    (h : LS8.disassemble memory address = some row) : Plain row.text := by
  -- a row shows an instruction, or a byte with a note of what the decoder said
  have hparts : Plain row.mnemonic ∧ Plain row.operands := by
    cases disassemble_cases h with
    | instruction i hi hrow =>
      rw [hrow]
      exact ⟨i.opcode.plain_mnemonic, i.plain_operandText⟩
    | byte byte fault hbyte hfault hrow =>
      rw [hrow]
      have hmnemonic : Plain ".byte" := by decide
      have hnote := plain_note (quotesText_of_decode hfault)
      exact ⟨hmnemonic, ((plain_hexLiteral byte.toNat).append (by decide)).append hnote⟩
  unfold text
  split
  · exact hparts.1
  · exact (hparts.1.append (by decide)).append hparts.2

/-- The state line of a trace report is made of fixed words and hexadecimal numerals. -/
theorem TraceFrame.plain_text (frame : TraceFrame) : Plain frame.text := by
  -- the two lists of the frame: a missing cell is written with two dashes
  have hcells : Plain (String.join (frame.window.toList.map fun cell => " " ++ cellText cell)) := by
    apply plain_join
    intro text htext
    obtain ⟨cell, -, rfl⟩ := List.mem_map.mp htext
    cases cell with
    | none => decide
    | some byte => exact Plain.append (by decide) (plain_hexadecimal 2 byte.toNat)
  have hregisters : Plain (String.join
      (frame.registers.values.toList.map fun byte => " " ++ hexadecimal 2 byte.toNat)) := by
    apply plain_join
    intro text htext
    obtain ⟨byte, -, rfl⟩ := List.mem_map.mp htext
    exact Plain.append (by decide) (plain_hexadecimal 2 byte.toNat)
  exact ((((Plain.append (by decide) (plain_hexadecimal 2 frame.pc)).append (by decide)).append
    hcells).append (by decide)).append hregisters

/-- A row that was read from the window of a frame is a row like any other. -/
theorem TraceFrame.plain_disassemble {frame : TraceFrame} {row : DisassemblyRow}
    (h : frame.disassemble = some row) : Plain row.text := by
  unfold TraceFrame.disassemble at h
  split at h
  · exact DisassemblyRow.plain_text h
  · cases h

/-! ### Lines of a trace report -/

/-- The faults that an event reports quote nothing. -/
def TraceEvent.QuotesNothing (event : TraceEvent) : Prop :=
  ∀ fault pc, event = .faultRaised fault pc → fault.quotesText = false

/-- **The line of an event is plain** if the event quotes nothing. -/
theorem plain_traceLine {event : TraceEvent} (h : event.QuotesNothing) :
    Plain (CommandLine.traceLine event) := by
  cases event with
  | instructionStart pc opcode frame =>
    refine frame.plain_text.append ?_
    cases hrow : frame.disassemble with
    | none => decide
    | some row => exact Plain.append (by decide) (TraceFrame.plain_disassemble hrow)
  | registerWrite register value =>
    exact ((Plain.append (by decide) register.plain_name).append (by decide)).append
      (plain_decimal value.toNat)
  | output value => exact Plain.append (by decide) (plain_decimal value.toNat)
  | halted pc => exact Plain.append (by decide) (plain_hexadecimal 2 pc)
  | faultRaised fault pc =>
    -- the only event that carries a message, and its message quotes nothing
    exact ((Plain.append (by decide) (plain_hexadecimal 2 pc)).append (by decide)).append
      (Fault.plain_message (h fault pc rfl))

namespace Stage

variable {σ : Type} {sink : Sink σ} {c : Stage σ}

/-- The event that closes a cycle reports a fault of the decoder, of the sink or none. -/
theorem quotesNothing_closing : (c.closing sink).QuotesNothing := by
  intro fault pc h
  -- the decoder's faults are reported, and those of the sink and of the arithmetic unit
  unfold closing at h
  split at h
  · next raised hd =>
    obtain ⟨rfl, -⟩ := TraceEvent.faultRaised.inj h
    exact quotesText_of_decode hd
  · cases h
  · cases h
  · split at h
    · cases h
    · cases h
      rfl
  · split at h
    · cases h
    · cases h
      rfl

/-- No event of a step quotes anything. -/
theorem quotesNothing_of_mem_step {event : TraceEvent} (h : event ∈ (c.step sink).events) :
    event.QuotesNothing := by
  cases hc : c.machine.runState with
  | halted =>
    rw [step, Machine.step, hc] at h
    cases h
  | faulted fault =>
    rw [step, Machine.step, hc] at h
    cases h
  | running =>
    -- a cycle reports how it opens and how it closes, or nothing at all
    rw [(closedBy_closing sink hc).events_eq, Machine.traced] at h
    split at h
    · rcases List.mem_append.mp h with hopening | hclosing
      · -- an opening event reports no fault
        rw [← opening_eq_startEvents] at hopening
        intro fault pc hfault
        rw [hfault] at hopening
        cases not_isFinal_of_mem_opening _ hopening
      · rw [List.mem_singleton.mp hclosing]
        exact quotesNothing_closing
    · cases h

end Stage

/-! ### Runs -/

/-- A fault that execution explains quotes no text. -/
theorem Fault.quotesText_of_not_ofRequest {fault : Fault} (h : fault.ofRequest = false) :
    fault.quotesText = false := by
  cases fault with
  | unsupportedOperation operation => cases h
  | snapshotLayout reason => cases h
  | _ => rfl

namespace Stage

variable {σ : Type} {sink : Sink σ} {stop : σ → Bool} {limit : Option Nat} {c : Stage σ}

/-- The fault that a run ends with is explained by the machine that it leaves. -/
theorem quotesText_of_runLoop {fault : Fault} (hc : c.machine.runState = .running)
    (hpc : c.machine.pc ≤ 256) (h : (c.runLoop sink stop limit).result = .error fault) :
    fault.quotesText = false := by
  obtain ⟨_, hexplained⟩ := exists_explainedFault hc hpc h
  exact Fault.quotesText_of_not_ofRequest hexplained.not_ofRequest

/-- **The lines of a run's trace report** have no `w` and no line feed in them. -/
theorem plain_of_mem_runLoop {event : TraceEvent} (hc : c.machine.runState = .running)
    (h : event ∈ (c.runLoop sink stop limit).events) : Plain (CommandLine.traceLine event) := by
  -- the events of a run are those of its step requests
  obtain ⟨n, result, hcourse⟩ := exists_course sink stop limit hc
  rw [hcourse.runLoop_eq hc] at h
  obtain ⟨d, -, hevent⟩ := List.mem_flatMap.mp h
  exact plain_traceLine (quotesNothing_of_mem_step hevent)

end Stage

end LS8
