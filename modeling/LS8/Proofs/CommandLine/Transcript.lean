import LS8.Proofs.CommandLine.Wording
import LS8.Proofs.Machine.FreshStart
import LS8.Proofs.Machine.SinkView
import LS8.Proofs.Machine.StateText
import LS8.Proofs.Machine.Tracing
import LS8.Proofs.Program.Diagnosis

/-!
# What a command writes and how it exits

A command goes one of five ways: its program file is missing, it is unreadable, its text is wrong,
its run faults, or its run ends (`Options.Goes`). The exit status tells the first from the next three
and these from the last.

What a command writes is told by a run of its own (`Options.runOf`), the one of the program on a
fresh machine that collects what it emits. The run of the command prints lines instead, and that is
the same but for how the values are kept. `Options.Reports` says what is made of this run: on
standard output a decimal line for each value and, if it was asked for, a JSON text behind them that
shows the machine which the run has left, whatever the end was (`Machine.ShowsState`); on standard
error the trace report and the diagnostics. The warning of a step limit stands there if and only if
the run has used up its limit, because nothing else in these lines starts like it. A program that
cannot be loaded leaves nothing on standard output, and on standard error the sentence for what is
wrong with it (`Diagnoses`).

Tracing adds lines to standard error. It changes neither standard output nor the exit status.
-/

namespace LS8

namespace CommandLine

theorem joinLines_append (a b : List String) : joinLines (a ++ b) = joinLines a ++ joinLines b := by
  simp [joinLines]

theorem joinLines_singleton (line : String) : joinLines [line] = line ++ "\n" := by
  simp [joinLines]

/-- As characters, joined lines are the lines with a line feed behind each. -/
theorem toList_joinLines (lines : List String) :
    (joinLines lines).toList = (lines.map String.toList).flatMap (· ++ ['\n']) := by
  unfold joinLines
  rw [String.toList_join, List.flatMap_map, List.flatMap_map]
  simp only [String.toList_append]
  rfl

namespace Options

/-- The run of a command whose program file holds an image: on a fresh machine that traces if the
command does and that has its step limit, with a sink that keeps every value. -/
def runOf (options : Options) (image : List UInt8) : Response (List UInt8) RunOutcome :=
  (Machine.fresh { tracing := options.trace, stepLimit := options.maxSteps } image).run .collect []

/-- The final state as a command prints it, or nothing if it was not asked for. -/
def dump (options : Options) (m : Machine) : String :=
  if options.dumpState then m.snapshot.indentedText ++ "\n" else ""

/-- The warning of a run that was stopped behind `n` instructions with the machine at `pc`. -/
def limitWarning (n pc : Nat) : String :=
  "warning: step limit of " ++ toString n ++ " reached at pc " ++ hexLiteral pc ++ " before HLT"

/-- What a command makes of the run of its program. -/
structure Reports (options : Options) (r : Response (List UInt8) RunOutcome) (t : Transcript) :
    Prop where
  /-- The values that were emitted, one a line, and behind them the state, if it was asked for. -/
  stdout_eq : ∃ dumped,
    t.stdout = String.join (r.sink.map fun value => toString value.toNat ++ "\n") ++ dumped ∧
      (options.dumpState = true → ∃ value, r.machine.ShowsState value dumped) ∧
      (options.dumpState = false → dumped = "")
  stderr_eq : t.stderr =
    joinLines (r.events.map traceLine ++ runDiagnostics r.machine.pc r.result)
  warns_iff : "warning: step limit of ".toList <:+: t.stderr.toList ↔
    ∃ n, r.result = .ok ⟨n, .stepLimit⟩
  /-- The warning is the last line, and it names the limit that was given. -/
  warning_eq : ∀ n, r.result = .ok ⟨n, .stepLimit⟩ → options.maxSteps = some n ∧
    ∃ earlier, t.stderr = earlier ++ limitWarning n r.machine.pc ++ "\n"
  /-- The last line of a faulted run names the fault. -/
  error_eq : ∀ fault, r.result = .error fault →
    ∃ earlier, t.stderr = earlier ++ "error: " ++ fault.message ++ "\n"

/-- What the transcript of a command says about what happened. -/
structure Tells (options : Options) (file : FileText) (t : Transcript) : Prop where
  exit_eq_two_iff : t.exit = 2 ↔ file = .missing
  exit_eq_one_iff : t.exit = 1 ↔ (∃ reason, file = .unreadable reason) ∨
    (∃ content error, file = .text content ∧ parseProgram content = .error error) ∨
    ∃ content image fault, file = .text content ∧ parseProgram content = .ok image ∧
      (options.runOf image).result = .error fault
  exit_eq_zero_iff : t.exit = 0 ↔ ∃ content image n, file = .text content ∧
    parseProgram content = .ok image ∧
      ((options.runOf image).result = .ok ⟨n, .halted⟩ ∨
        (options.runOf image).result = .ok ⟨n, .stepLimit⟩)
  /-- Not even the final state is printed, and the diagnostic names what is wrong. -/
  of_load_error : ∀ error, parseFile options.program file = .error error →
    t.stdout = "" ∧ t.stderr = error.diagnostic ++ "\n" ∧
      Diagnoses options.program file t.stderr
  /-- The machine that runs is the one that loading makes. -/
  of_loaded : ∀ content image, file = .text content → parseProgram content = .ok image →
    (Machine.withConfig { tracing := options.trace, stepLimit := options.maxSteps }).load image =
        .ok (Machine.fresh { tracing := options.trace, stepLimit := options.maxSteps } image) ∧
      options.Reports (options.runOf image) t
  /-- The same command with tracing switched on or off. -/
  untraced : ∀ trace, let t' := ({ options with trace } : Options).execute file { room := none }
    t'.stdout = t.stdout ∧ t'.exit = t.exit

variable {options : Options} {file : FileText} {content : String} {image : List UInt8}
variable {error : LoadError}

/-! ### The run of a command -/

/-- Where the run of a command starts. -/
def start (options : Options) (image : List UInt8) : Stage (List UInt8) :=
  ⟨Machine.fresh options.config image, []⟩

/-- A loaded machine is running: nothing of the program has been executed. -/
theorem runState_start (options : Options) (image : List UInt8) :
    (options.start image).machine.runState = .running := rfl

/-- The run of a command is the run loop under the limit of the options and without a signal. -/
theorem runOf_eq (options : Options) (image : List UInt8) :
    options.runOf image =
      (options.start image).runLoop .collect (fun _ => false) options.maxSteps := rfl

/-- The ways in which the run of a command ends. There is no signal that could interrupt it. -/
inductive RunEnd (options : Options) : Except Fault RunOutcome → Prop
  | faulted (fault : Fault) (own : fault.quotesText = false) : RunEnd options (.error fault)
  | halted (n : Nat) : RunEnd options (.ok ⟨n, .halted⟩)
  | limit (n : Nat) (given : options.maxSteps = some n) : RunEnd options (.ok ⟨n, .stepLimit⟩)

/-- **The run of a command ends in one of three ways.** -/
theorem runEnd_runOf (options : Options) (image : List UInt8) :
    options.RunEnd (options.runOf image).result := by
  have hc := options.runState_start image
  have hpc : (options.start image).machine.pc ≤ 256 := Nat.zero_le 256
  obtain ⟨n, result, hcourse⟩ :=
    Stage.exists_course .collect (fun _ => false) options.maxSteps hc
  have hresult : (options.runOf image).result = result := by
    rw [runOf_eq, hcourse.runLoop_eq hc]
    rfl
  cases hcourse with
  | limit _ _ _ hused _ =>
    rw [hresult]
    exact .limit _ hused
  -- there is no signal
  | stopped _ _ _ _ _ hsignal => cases hsignal
  | halted _ _ _ _ _ =>
    rw [hresult]
    exact .halted _
  | faulted _ _ _ _ fault _ =>
    have hown : fault.quotesText = false := Stage.quotesText_of_runLoop hc hpc hresult
    rw [hresult]
    exact .faulted fault hown

/-- The run of a command under tracing is the same but for the events. -/
theorem runOf_trace (options : Options) (trace : Bool) (image : List UInt8) :
    (({ options with trace } : Options).runOf image).muted = (options.runOf image).muted := by
  have hshared : (({ options with trace } : Options).start image).muted =
      (options.start image).muted := rfl
  calc (({ options with trace } : Options).runOf image).muted
      = (({ options with trace } : Options).start image).muted.runLoop .collect
          (fun _ => false) options.maxSteps := by rw [runOf_eq, Stage.runLoop_muted]
    _ = (options.start image).muted.runLoop .collect (fun _ => false) options.maxSteps := by
        rw [hshared]
    _ = (options.runOf image).muted := by rw [runOf_eq, Stage.runLoop_muted]

/-! ### Transcripts -/

/-- The transcript of a run that was answered by `r`, with room for everything. -/
def transcriptOf (options : Options) (r : Response (List UInt8) RunOutcome) : Transcript where
  exit := runStatus r.result
  stdout := String.ofList (r.sink.flatMap decimalLine) ++ options.dump r.machine
  stderr := joinLines (r.events.map traceLine ++ runDiagnostics r.machine.pc r.result)

/-- With room for everything, a report is the transcript of the collecting run. -/
theorem report_holding (options : Options) (r : Response (List UInt8) RunOutcome) :
    options.report (r.mapSink .holding) = options.transcriptOf r := by
  unfold report transcriptOf dump
  split
  · change ({ exit := _, stdout := String.ofList (_ ++ (_ ++ ['\n'])), stderr := _ } : Transcript) = _
    rw [String.ofList_append, String.ofList_append, String.ofList_toList]
    rfl
  · rw [String.append_empty]
    rfl

/-- A load error is all that such a command reports. -/
theorem execute_of_load_error (h : parseFile options.program file = .error error) :
    options.execute file { room := none } =
      { exit := error.exitStatus, stdout := "", stderr := error.diagnostic ++ "\n" } := by
  have hload : (Machine.withConfig options.config).loadFile options.program file =
      .error error := by
    unfold Machine.loadFile
    rw [h]
    rfl
  unfold execute
  rw [hload, ← joinLines_singleton]

/-- A command with a program runs it from a fresh machine. -/
theorem execute_of_parse_ok (h : parseProgram content = .ok image) :
    options.execute (.text content) { room := none } =
      options.transcriptOf (options.runOf image) := by
  have hload : (Machine.withConfig options.config).loadFile options.program (.text content) =
      .ok (Machine.fresh options.config image) := Machine.loadFile_of_parse_ok _ _ h
  unfold execute
  rw [hload]
  change options.report ((Machine.fresh options.config image).run .decimalLines { room := none }) = _
  -- printing lines is collecting values, up to the last step
  rw [Machine.run_decimalLines rfl]
  exact report_holding options (options.runOf image)

/-! ### The ways of a command -/

/-- How a command goes, with its exit status. -/
inductive Goes (options : Options) : FileText → Nat → Prop
  | missing : Goes options .missing 2
  | unreadable (reason : String) : Goes options (.unreadable reason) 1
  | refused (content : String) (error : LoadError) (wrong : parseProgram content = .error error) :
      Goes options (.text content) 1
  | faulted (content : String) (image : List UInt8) (fault : Fault)
      (parsed : parseProgram content = .ok image)
      (faults : (options.runOf image).result = .error fault) : Goes options (.text content) 1
  | ended (content : String) (image : List UInt8) (n : Nat)
      (parsed : parseProgram content = .ok image)
      (ends : (options.runOf image).result = .ok ⟨n, .halted⟩ ∨
        (options.runOf image).result = .ok ⟨n, .stepLimit⟩) : Goes options (.text content) 0

/-- What is wrong with a text is never that a file is missing. -/
theorem exitStatus_of_isOfText (h : error.kind.isOfText = true) : error.exitStatus = 1 := by
  unfold LoadError.exitStatus
  cases hkind : error.kind with
  | fileNotFound path =>
    rw [hkind] at h
    cases h
  | _ => rfl

/-- **A command goes one of the five ways**, and its exit status is the one of the way. -/
theorem goes_execute (options : Options) (file : FileText) :
    options.Goes file (options.execute file { room := none }).exit := by
  cases file with
  | missing => exact .missing
  | unreadable reason => exact .unreadable reason
  | text content =>
    cases hparse : parseProgram content with
    | error error =>
      -- the reason is one of the text's, whatever the text says
      obtain ⟨kind, line, rfl, hwrong⟩ := exists_ofText hparse
      have hload : parseFile options.program (.text content) =
          .error ((LoadError.atLine kind line).inFile options.program) :=
        parseFile_eq_error_iff.mpr (.inr (.inr ⟨content, _, rfl, hparse, rfl⟩))
      rw [execute_of_load_error hload]
      change options.Goes (.text content) (LoadError.exitStatus _)
      rw [exitStatus_of_isOfText hwrong.isOfText]
      exact .refused content _ hparse
    | ok image =>
      rw [execute_of_parse_ok hparse]
      change options.Goes (.text content) (runStatus (options.runOf image).result)
      have hend := options.runEnd_runOf image
      cases hresult : (options.runOf image).result with
      | error fault => exact .faulted content image fault hparse hresult
      | ok outcome =>
        rw [hresult] at hend
        cases hend with
        | halted n => exact .ended content image n hparse (.inl hresult)
        | limit n _ => exact .ended content image n hparse (.inr hresult)

namespace Goes

variable {exit : Nat}

/-- Only a missing file has the status 2. -/
theorem exit_eq_two_iff (h : options.Goes file exit) : exit = 2 ↔ file = .missing := by
  cases h <;> simp

/-- The status 1 stands for everything else that can go wrong. -/
theorem exit_eq_one_iff (h : options.Goes file exit) : exit = 1 ↔
    (∃ reason, file = .unreadable reason) ∨
    (∃ content error, file = .text content ∧ parseProgram content = .error error) ∨
    ∃ content image fault, file = .text content ∧ parseProgram content = .ok image ∧
      (options.runOf image).result = .error fault := by
  -- the kind of file and the results of parsing and running pick at most one of the three causes
  cases h with
  | missing => simp
  | unreadable reason => simp
  | refused content error wrong => simp [wrong]
  | faulted content image fault parsed faults => simp [parsed, faults]
  | ended content image n parsed ends =>
    rcases ends with hend | hend
    · simp [parsed, hend]
    · simp [parsed, hend]

/-- The status 0 means that the run has ended of its own accord or by its limit. -/
theorem exit_eq_zero_iff (h : options.Goes file exit) : exit = 0 ↔
    ∃ content image n, file = .text content ∧ parseProgram content = .ok image ∧
      ((options.runOf image).result = .ok ⟨n, .halted⟩ ∨
        (options.runOf image).result = .ok ⟨n, .stepLimit⟩) := by
  cases h with
  | missing => simp
  | unreadable reason => simp
  | refused content error wrong => simp [wrong]
  | faulted content image fault parsed faults => simp [parsed, faults]
  | ended content image n parsed ends =>
    exact ⟨fun _ => ⟨content, image, n, rfl, parsed, ends⟩, fun _ => rfl⟩

end Goes

/-! ### The warning -/

/-- Plain lines stay without the letter when they are joined. -/
theorem lacksW_joinLines {lines : List String} (h : ∀ line ∈ lines, Plain line) :
    LacksW (joinLines lines) := by
  unfold LacksW
  rw [toList_joinLines, List.mem_flatMap]
  rintro ⟨cs, hcs, hmem⟩
  obtain ⟨line, hline, rfl⟩ := List.mem_map.mp hcs
  rcases List.mem_append.mp hmem with hinside | hfeed
  · exact (h line hline).lacksW hinside
  · exact absurd hfeed (by decide)

/-- A run that has not used up its limit has nothing to warn of. -/
theorem lacksW_stderr (h : ∀ n, (options.runOf image).result ≠ .ok ⟨n, .stepLimit⟩) :
    LacksW (options.transcriptOf (options.runOf image)).stderr := by
  have hdiagnostics : ∀ line ∈ runDiagnostics (options.runOf image).machine.pc
      (options.runOf image).result, Plain line := by
    intro line hline
    have hend := options.runEnd_runOf image
    cases hresult : (options.runOf image).result with
    | error fault =>
      rw [hresult] at hline hend
      cases hend with
      | faulted _ own =>
        rw [List.mem_singleton.mp hline]
        exact Plain.append (by decide) (Fault.plain_message own)
    | ok outcome =>
      rw [hresult] at hline hend
      cases hend with
      | halted n => cases hline
      | limit n _ => exact absurd hresult (h n)
  -- a line belongs to the trace report or to the diagnostics behind it
  apply lacksW_joinLines
  intro line hline
  rcases List.mem_append.mp hline with htrace | hdiagnostic
  · obtain ⟨event, hevent, rfl⟩ := List.mem_map.mp htrace
    exact Stage.plain_of_mem_runLoop (options.runState_start image) hevent
  · exact hdiagnostics line hdiagnostic

/-- The lines of a trace report stand in front of the diagnostic. -/
theorem stderr_of_diagnostic {line : String}
    (h : runDiagnostics (options.runOf image).machine.pc (options.runOf image).result = [line]) :
    (options.transcriptOf (options.runOf image)).stderr =
      joinLines ((options.runOf image).events.map traceLine) ++ line ++ "\n" := by
  show joinLines (_ ++ runDiagnostics _ _) = _
  rw [h, joinLines_append, joinLines_singleton, String.append_assoc]

/-- The warning is the last line of a run that has used up its limit. -/
theorem stderr_of_limit {n : Nat} (h : (options.runOf image).result = .ok ⟨n, .stepLimit⟩) :
    (options.transcriptOf (options.runOf image)).stderr =
      joinLines ((options.runOf image).events.map traceLine) ++
        limitWarning n (options.runOf image).machine.pc ++ "\n" := by
  have hlines : runDiagnostics (options.runOf image).machine.pc (options.runOf image).result =
      [limitWarning n (options.runOf image).machine.pc] := by
    rw [h]
    rfl
  exact stderr_of_diagnostic hlines

/-- The warning opens with these words. -/
theorem infix_of_limitWarning (earlier later : String) (n pc : Nat) :
    "warning: step limit of ".toList <:+: (earlier ++ limitWarning n pc ++ later).toList := by
  refine ⟨earlier.toList, (toString n ++ " reached at pc " ++ hexLiteral pc ++ " before HLT" ++
    later).toList, ?_⟩
  rw [← String.toList_append, ← String.toList_append]
  unfold limitWarning
  simp only [String.append_assoc]

/-- A line for each value, in terms of its numeral. -/
theorem ofList_flatMap_decimalLine (values : List UInt8) :
    String.ofList (values.flatMap decimalLine) =
      String.join (values.map fun value => toString value.toNat ++ "\n") := by
  have hlines := join_feed (values.map fun value => Nat.toDigits 10 value.toNat)
  rw [List.map_map, List.flatMap_map] at hlines
  exact hlines.symm

/-- **What is dumped shows the machine that the run has left.** -/
theorem showsState_runOf (options : Options) (image : List UInt8) :
    let m := (options.runOf image).machine
    m.ShowsState m.snapshot.toJson (m.snapshot.indentedText ++ "\n") := by
  have hpc : (options.start image).machine.pc ≤ 256 := Nat.zero_le 256
  rw [runOf_eq]
  exact Stage.showsState_runLoop .collect (fun _ => false) options.maxSteps
    (options.runState_start image) hpc

/-- **The transcript of a run reports the run.** -/
theorem reports_transcriptOf (options : Options) (image : List UInt8) :
    options.Reports (options.runOf image) (options.transcriptOf (options.runOf image)) where
  stdout_eq := by
    refine ⟨options.dump (options.runOf image).machine, ?_, ?_, ?_⟩
    · rw [← ofList_flatMap_decimalLine]
      rfl
    · intro hdump
      rw [dump, if_pos hdump]
      exact ⟨_, options.showsState_runOf image⟩
    · intro hdump
      rw [dump, hdump]
      rfl
  stderr_eq := rfl
  warns_iff := by
    constructor
    · intro hwarning
      by_contra hnone
      have hlacks : LacksW (options.transcriptOf (options.runOf image)).stderr :=
        lacksW_stderr fun n hn => hnone ⟨n, hn⟩
      -- the first letter of the warning would be somewhere
      apply hlacks
      exact hwarning.subset (by decide)
    · rintro ⟨n, hn⟩
      rw [stderr_of_limit hn]
      exact infix_of_limitWarning _ _ n _
  warning_eq := by
    intro n hn
    have hend := options.runEnd_runOf image
    rw [hn] at hend
    cases hend with
    | limit _ given => exact ⟨given, _, stderr_of_limit hn⟩
  error_eq := by
    intro fault hfault
    have hlines : runDiagnostics (options.runOf image).machine.pc (options.runOf image).result =
        ["error: " ++ fault.message] := by
      rw [hfault]
      rfl
    refine ⟨joinLines ((options.runOf image).events.map traceLine), ?_⟩
    rw [stderr_of_diagnostic hlines, ← String.append_assoc]

/-! ### With and without tracing -/

/-- Tracing changes neither standard output nor the exit status. -/
theorem execute_trace (options : Options) (file : FileText) (trace : Bool) :
    (({ options with trace } : Options).execute file { room := none }).stdout =
        (options.execute file { room := none }).stdout ∧
      (({ options with trace } : Options).execute file { room := none }).exit =
        (options.execute file { room := none }).exit := by
  cases hparse : parseFile options.program file with
  | error error =>
    have hparse' : parseFile ({ options with trace } : Options).program file = .error error :=
      hparse
    rw [execute_of_load_error hparse, execute_of_load_error hparse']
    exact ⟨rfl, rfl⟩
  | ok image =>
    obtain ⟨content, rfl, hcontent⟩ := exists_of_parseFile hparse
    rw [execute_of_parse_ok hcontent, execute_of_parse_ok hcontent]
    -- the two runs have one muted form, and what is printed can be read off it
    have hmuted := options.runOf_trace trace image
    obtain ⟨hresult, hmachine, hsink, -⟩ := Response.mk.inj hmuted
    have hsnapshot : (({ options with trace } : Options).runOf image).machine.snapshot =
        (options.runOf image).machine.snapshot := by
      -- a snapshot does not show the configuration
      have hshown := congrArg Machine.snapshot hmachine
      exact hshown
    constructor
    · unfold transcriptOf dump
      rw [hsink, hsnapshot]
    · exact congrArg runStatus hresult

/-- **The transcript of a command tells what happened.** Whatever the options are and whatever
becomes of reading the file, standard output, standard error and the exit status are those of the
way that the command goes. -/
theorem tells_execute (options : Options) (file : FileText) :
    options.Tells file (options.execute file { room := none }) where
  exit_eq_two_iff := (options.goes_execute file).exit_eq_two_iff
  exit_eq_one_iff := (options.goes_execute file).exit_eq_one_iff
  exit_eq_zero_iff := (options.goes_execute file).exit_eq_zero_iff
  of_load_error := by
    -- nothing runs: the only text is the diagnostic
    intro error herror
    rw [execute_of_load_error herror]
    exact ⟨rfl, rfl, diagnoses_of_parseFile herror⟩
  of_loaded := by
    -- an image that was parsed fits, so the machine starts afresh with it
    rintro content image rfl hparse
    rw [execute_of_parse_ok hparse]
    exact ⟨Machine.load_eq_fresh rfl (length_le_of_parse hparse),
      options.reports_transcriptOf image⟩
  untraced := options.execute_trace file

/-- A command that traces, and that prints the final state. -/
def tracedDump : Options where
  program := "illegal.ls8"
  trace := true
  dumpState := true

/-- A program that prints 5 and then runs into a byte that is no opcode. -/
def illegalText : String :=
  "10000010\n00000000\n00000101\n01000111\n00000000\n11111111\n"

/-- The image in `illegalText`. -/
def illegalImage : List UInt8 :=
  [0x82, 0, 5, 0x47, 0, 0xFF]

/-- The state in which `illegalText` stops. -/
def illegalState : Snapshot where
  pc := 5
  registers := ⟨#v[5, 0, 0, 0, 0, 0, 0, 0]⟩
  memory := illegalImage ++ List.replicate 250 0
  runState := .faulted (.illegalInstruction 0xFF 5)

/-- The fault is latched in the state that is printed, the value that was emitted stands in front of
it, and standard error ends in the diagnostic, behind the trace report and without a warning. -/
theorem tells_execute_illegal :
    let t := tracedDump.execute (.text illegalText) { room := none }
    tracedDump.Tells (.text illegalText) t ∧ t.exit = 1 ∧
      (∃ dumped value, t.stdout = "5\n" ++ dumped ∧
        (tracedDump.runOf illegalImage).machine.ShowsState value dumped ∧
        Snapshot.ofText? dumped = some illegalState) ∧
      (∃ earlier, t.stderr = earlier ++ "error: illegal instruction 0b11111111 at pc 0x05\n") ∧
      ¬ "warning: step limit of ".toList <:+: t.stderr.toList := by
  intro t
  have hparse : parseProgram illegalText = .ok illegalImage := by decide +kernel
  have hfault : (tracedDump.runOf illegalImage).result = .error (.illegalInstruction 0xFF 5) := by
    decide +kernel
  have hsink : (tracedDump.runOf illegalImage).sink = [5] := by decide +kernel
  have hstate : (tracedDump.runOf illegalImage).machine.snapshot = illegalState := by
    decide +kernel
  have hmessage : "error: " ++ ((Fault.illegalInstruction 0xFF 5).message ++ "\n") =
      "error: illegal instruction 0b11111111 at pc 0x05\n" := by
    decide +kernel
  -- what follows is read off the statement about all runs, not off the run itself
  have htells : tracedDump.Tells (.text illegalText) t :=
    tells_execute tracedDump (.text illegalText)
  obtain ⟨-, hreports⟩ := htells.of_loaded illegalText illegalImage rfl hparse
  obtain ⟨dumped, hstdout, hshows, -⟩ := hreports.stdout_eq
  obtain ⟨value, hvalue⟩ := hshows rfl
  obtain ⟨earlier, hstderr⟩ := hreports.error_eq _ hfault
  refine ⟨htells, ?_, ⟨dumped, value, ?_, hvalue, ?_⟩, ⟨earlier, ?_⟩, ?_⟩
  · exact htells.exit_eq_one_iff.mpr (.inr (.inr ⟨_, _, _, rfl, hparse, hfault⟩))
  · rw [hstdout, hsink]
    rfl
  · rw [← hstate]
    exact hvalue.ofText?_eq
  · rw [hstderr, String.append_assoc, String.append_assoc, hmessage]
  · intro hwarning
    obtain ⟨n, hlimit⟩ := hreports.warns_iff.mp hwarning
    rw [hfault] at hlimit
    cases hlimit

/-- A program that is not there leaves no state to print. -/
example :
    ({ program := "lost.ls8", dumpState := true } : Options).execute .missing { room := none } =
      { exit := 2, stdout := "", stderr := "error: file not found: lost.ls8\n" } := by
  decide +kernel

end Options

end CommandLine

end LS8
