import LS8.Proofs.CommandLine.Transcript
import LS8.Proofs.Fault.Message
import LS8.Proofs.Text.Lines

/-!
# The diagnostic of a fault

A run that faults says so on standard error: in a line of its own the message of the fault stands
behind the word `error:`. In front of this line there may be a trace report, and behind it there may
be a second error line, about a final state that could not be printed. `errorText?` is what a reader
does who has only the text: find the first error line and take what it says.

This finds the message of the fault, and all of it. The line is not found too early, because a line
of a trace report opens with one of two other words (`traceLine_not_error`). It is not cut short
either, because the faults that execution raises have messages without a line feed. And since no two
faults have one message (`Fault.message_injective`), the reader knows which fault the machine has
latched (`Options.diagnostics_unambiguous`), although other parts of standard error, and all of
standard output, depend on options and on where the output goes.
-/

namespace LS8

namespace CommandLine

/-- The word in front of an error. -/
def errorWord : String := "error: "

/-- What a line says if it is an error line. -/
def errorOfLine? (line : List Char) : Option String :=
  (errorWord.toList.isPrefixOf? line).map String.ofList

/-- What the first error line of a text says. -/
def errorText? (stderr : String) : Option String :=
  (lines stderr.toList).findSome? errorOfLine?

/-- An error line gives what stands behind its word, all of it. -/
theorem errorOfLine?_error (text : String) : errorOfLine? (errorWord ++ text).toList = some text := by
  have hword : errorWord.toList.isPrefixOf? (errorWord ++ text).toList = some text.toList := by
    rw [String.toList_append]
    exact List.isPrefixOf?_eq_some_iff_append_eq.mpr rfl
  rw [errorOfLine?, hword, Option.map_some, String.ofList_toList]

/-- A line that opens with a word excluded by `errorWord` is no error line, whatever follows. -/
theorem errorOfLine?_of_exclude {word : String} (h : Exclude errorWord word) (rest : String) :
    errorOfLine? (word ++ rest).toList = none := by
  rw [errorOfLine?, String.toList_append, h.isPrefixOf?_append, Option.map_none]

/-- **The first error is found** behind lines that are none, if it has no line feed in it. -/
theorem errorText?_joinLines {earlier later : List String} {text : String}
    (hearlier : ∀ line ∈ earlier, Plain line ∧ errorOfLine? line.toList = none)
    (htext : Plain text) :
    errorText? (joinLines (earlier ++ (errorWord ++ text) :: later)) = some text := by
  have hword : Plain errorWord := by decide
  -- up to the error, what was written line by line is read line by line
  have hwhole : ∀ cs ∈ (earlier ++ [errorWord ++ text]).map String.toList, '\n' ∉ cs := by
    intro cs hcs
    obtain ⟨line, hline, rfl⟩ := List.mem_map.mp hcs
    rcases List.mem_append.mp hline with hfront | herror
    · exact (hearlier line hfront).1.feed_notMem
    · rw [List.mem_singleton.mp herror]
      exact (hword.append htext).feed_notMem
  have hlines : lines (joinLines (earlier ++ (errorWord ++ text) :: later)).toList =
      earlier.map String.toList ++
        (errorWord ++ text).toList :: lines (joinLines later).toList := by
    rw [List.append_cons, joinLines_append, String.toList_append, toList_joinLines,
      lines_flatMap_feed hwhole, List.map_append, List.append_assoc]
    rfl
  have hfront : (earlier.map String.toList).findSome? errorOfLine? = none := by
    rw [List.findSome?_eq_none_iff]
    intro cs hcs
    obtain ⟨line, hline, rfl⟩ := List.mem_map.mp hcs
    exact (hearlier line hline).2
  rw [errorText?, hlines, List.findSome?_append, hfront, Option.none_or, List.findSome?_cons,
    errorOfLine?_error]

/-! ### Lines in front of the diagnostic -/

/-- How the lines of a trace report open: a state line with its word, the others with blanks. -/
theorem exists_opening (event : TraceEvent) :
    ∃ word ∈ ["TRACE: ", "    "], ∃ rest, traceLine event = word ++ rest := by
  -- one line for each kind of event, cut behind its opening
  cases event with
  | instructionStart pc opcode frame =>
    refine ⟨"TRACE: ", by decide, ?_⟩
    show ∃ rest, frame.text ++ _ = "TRACE: " ++ rest
    unfold TraceFrame.text
    simp only [String.append_assoc]
    exact ⟨_, rfl⟩
  | registerWrite register value =>
    refine ⟨"    ", by decide, register.name ++ (" <- " ++ decimal value.toNat), ?_⟩
    show "    " ++ register.name ++ " <- " ++ decimal value.toNat = _
    rw [String.append_assoc, String.append_assoc]
  | output value =>
    have hout : "    out " = "    " ++ "out " := by decide
    refine ⟨"    ", by decide, "out " ++ decimal value.toNat, ?_⟩
    show "    out " ++ decimal value.toNat = _
    rw [hout, String.append_assoc]
  | halted pc =>
    have hhalt : "    halt at " = "    " ++ "halt at " := by decide
    refine ⟨"    ", by decide, "halt at " ++ hexadecimal 2 pc, ?_⟩
    show "    halt at " ++ hexadecimal 2 pc = _
    rw [hhalt, String.append_assoc]
  | faultRaised fault pc =>
    have hfault : "    fault at " = "    " ++ "fault at " := by decide
    refine ⟨"    ", by decide, "fault at " ++ (hexadecimal 2 pc ++ (": " ++ fault.message)), ?_⟩
    show "    fault at " ++ hexadecimal 2 pc ++ ": " ++ fault.message = _
    rw [hfault, String.append_assoc, String.append_assoc, String.append_assoc]

/-- **A line of a trace report is no error line**, not even the one that reports the fault. -/
theorem traceLine_not_error (event : TraceEvent) : errorOfLine? (traceLine event).toList = none := by
  obtain ⟨word, hword, rest, hline⟩ := exists_opening event
  have hexclude : ∀ word ∈ ["TRACE: ", "    "], Exclude errorWord word := by decide
  rw [hline]
  exact errorOfLine?_of_exclude (hexclude word hword) rest

namespace Options

variable {options : Options} {file : FileText} {stdout : Writer} {fault : Fault}

/-- The command loads its program, and the run, with standard output going to `stdout`, leaves the
machine with the fault latched. -/
def Latches (options : Options) (file : FileText) (stdout : Writer) (fault : Fault) : Prop :=
  ∃ m, (Machine.withConfig options.config).loadFile options.program file = .ok m ∧
    (m.run .decimalLines stdout).machine.runState = .faulted fault

/-- A loaded machine has not executed anything. -/
theorem fresh_of_loadFile {m m' : Machine} {path : String} (h : m.loadFile path file = .ok m') :
    m'.runState = .running ∧ m'.pc = 0 := by
  cases Machine.loadFile_eq_iff.mp h with
  | loaded content image _ parsed installed =>
    rw [m.load_of_parse parsed] at installed
    rw [← Except.ok.inj installed]
    exact ⟨rfl, rfl⟩

/-- A report names what the run ended with behind the trace report, and maybe one more thing. -/
theorem exists_stderr_report (options : Options) {r : Response Writer RunOutcome}
    (h : r.result = .error fault) : ∃ later, (options.report r).stderr =
      joinLines (r.events.map traceLine ++ (errorWord ++ fault.message) :: later) := by
  have hlines : r.events.map traceLine ++ runDiagnostics r.machine.pc r.result =
      r.events.map traceLine ++ [errorWord ++ fault.message] := by
    rw [h]
    rfl
  unfold report
  rw [hlines]
  -- a dump that cannot be written adds a line, and that line comes later
  split
  · split
    · exact ⟨[], rfl⟩
    · exact ⟨[dumpFailure], congrArg joinLines (List.append_cons _ _ _).symm⟩
  · exact ⟨[], rfl⟩

/-- **The first error on standard error is the message of the latched fault.** -/
theorem errorText?_of_latches (h : options.Latches file stdout fault) :
    errorText? (options.execute file stdout).stderr = some fault.message := by
  obtain ⟨m, hload, hlatched⟩ := h
  obtain ⟨hrunning, hpc⟩ := fresh_of_loadFile hload
  -- the run reports the fault that it leaves
  have hresult : (m.run .decimalLines stdout).result = .error fault := by
    have hstate : (m.run .decimalLines stdout).machine.runState =
        Stage.reportedState (m.run .decimalLines stdout).result :=
      Stage.runState_runLoop .decimalLines (fun _ => false) m.config.stepLimit ⟨m, stdout⟩
    rw [hlatched] at hstate
    exact Stage.eq_error_of_reportedState hstate.symm
  have hinside : m.pc ≤ 256 := by omega
  have hown : fault.quotesText = false :=
    Stage.quotesText_of_runLoop (c := ⟨m, stdout⟩) hrunning hinside hresult
  obtain ⟨later, hstderr⟩ := options.exists_stderr_report hresult
  have hexecute : (options.execute file stdout).stderr =
      (options.report (m.run .decimalLines stdout)).stderr := by
    rw [execute, hload]
  rw [hexecute, hstderr]
  apply errorText?_joinLines
  · intro line hline
    obtain ⟨event, hevent, rfl⟩ := List.mem_map.mp hline
    exact ⟨Stage.plain_of_mem_runLoop (c := ⟨m, stdout⟩) hrunning hevent,
      traceLine_not_error event⟩
  · exact Fault.plain_message hown

/-- **Diagnostics are unambiguous.** No two faults have one message, whatever they carry. So what a
command with a faulted run says as its first error is the message of the latched fault and of no
other one, under all options and wherever standard output goes. -/
theorem diagnostics_unambiguous :
    Function.Injective Fault.message ∧
    ∀ (options : Options) (file : FileText) (stdout : Writer) (fault : Fault),
      options.Latches file stdout fault →
        errorText? (options.execute file stdout).stderr = some fault.message ∧
        ∀ other : Fault, errorText? (options.execute file stdout).stderr = some other.message →
          other = fault := by
  refine ⟨Fault.message_injective, ?_⟩
  intro options file stdout fault hlatches
  have htext := errorText?_of_latches hlatches
  refine ⟨htext, ?_⟩
  intro other hother
  -- both messages are the text of the same line
  rw [htext] at hother
  exact Fault.message_injective (Option.some.inj hother).symm

/-- A command that traces, and that has to print the final state. -/
def verbose : Options where
  program := "stray.ls8"
  trace := true
  dumpState := true

/-- There is no room for the final state, so the diagnostic stands between the trace report and a
second error. -/
theorem diagnostics_unambiguous_verbose :
    verbose.Latches (.text "11110000") { room := some 0 } (.illegalInstruction 0xF0 0) ∧
    errorText? (verbose.execute (.text "11110000") { room := some 0 }).stderr =
      some "illegal instruction 0b11110000 at pc 0x00" ∧
    ∀ other : Fault, other.message = "illegal instruction 0b11110000 at pc 0x00" →
      other = .illegalInstruction 0xF0 0 := by
  have hparse : parseProgram "11110000" = .ok [0xF0] := by decide +kernel
  have hlatches :
      verbose.Latches (.text "11110000") { room := some 0 } (.illegalInstruction 0xF0 0) :=
    ⟨Machine.fresh verbose.config [0xF0], Machine.loadFile_of_parse_ok _ _ hparse,
      by decide +kernel⟩
  have hmessage : (Fault.illegalInstruction 0xF0 0).message =
      "illegal instruction 0b11110000 at pc 0x00" := by decide +kernel
  obtain ⟨htext, hother⟩ := diagnostics_unambiguous.2 verbose _ _ _ hlatches
  rw [hmessage] at htext
  refine ⟨hlatches, htext, ?_⟩
  intro other hsame
  exact hother other (by rw [htext, hsame])

end Options

end CommandLine

end LS8
