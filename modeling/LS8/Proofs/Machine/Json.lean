import LS8.CommandLine.Execute
import LS8.Proofs.Fault.Json
import LS8.Proofs.Machine.Snapshot

/-!
# Machine states survive their texts

A text is what a machine's state leaves a process as, so nothing may be lost in it. Writing a value
goes through its JSON form, and so does reading; `Json.read_write` takes care of the text, and what
is left is that each JSON form is taken back (`ofJson?_toJson`). Together they say that the text of
a value spells it (`Json.RoundTrips`), in both layouts and with the line feed behind it that ends a
command's output.

A machine's own snapshot rebuilds it, so a machine can be carried over as a text
(`Machine.CarriedByText`). As for faults, `Fits` says that no number is wider than its field.
-/

namespace LS8

/-- The texts of a JSON value spell `x`. -/
structure Json.RoundTrips {α : Type} (value : Json) (reader : Json → Option α) (x : α) : Prop where
  compact : (Json.read value.compact).bind reader = some x
  indented : (Json.read value.indented).bind reader = some x
  /-- As the last line of an output. -/
  line : (Json.read (value.indented ++ "\n")).bind reader = some x

/-- **What is written and taken back as a value is taken back as a text**, in either layout. -/
theorem Json.roundTrips {α : Type} {value : Json} {reader : Json → Option α} {x : α}
    (hwritten : Written value) (hreader : reader value = some x) : value.RoundTrips reader x := by
  -- a text is read back with any blanks behind it; the three texts differ in these and the layout
  have hread : ∀ (layout : Layout), layout.Blank → ∀ blanks : List Char,
      (∀ c ∈ blanks, isJsonBlank c = true) →
        (Json.read (String.ofList (value.write layout 0 ++ blanks))).bind reader = some x := by
    intro layout hlayout blanks hblanks
    rw [read_write hlayout hwritten hblanks, Option.bind_some, hreader]
  have hnone : ∀ c ∈ ([] : List Char), isJsonBlank c = true := fun c hc =>
    absurd hc List.not_mem_nil
  refine ⟨?_, ?_, ?_⟩
  · have hcompact := hread .compact Layout.blank_compact [] hnone
    rwa [List.append_nil] at hcompact
  · have hindented := hread .indented Layout.blank_indented [] hnone
    rwa [List.append_nil] at hindented
  · have hfeed : ∀ c ∈ ['\n'], isJsonBlank c = true := List.forall_mem_singleton.mpr rfl
    have hline := hread .indented Layout.blank_indented ['\n'] hfeed
    rwa [String.ofList_append] at hline

namespace Config

/-- The step limit is no wider than its field. -/
def Fits (config : Config) : Prop :=
  ∀ limit ∈ config.stepLimit, limit < stepLimitBound

theorem written_toJson (config : Config) : Json.Written config.toJson := by
  obtain ⟨tracing, _ | limit⟩ := config
  · exact Json.written_record (List.forall_mem_cons.mpr
      ⟨.bool tracing, List.forall_mem_singleton.mpr .null⟩)
  · exact Json.written_record (List.forall_mem_cons.mpr
      ⟨.bool tracing, List.forall_mem_singleton.mpr (Json.written_ofNat limit)⟩)

theorem ofJson?_toJson {config : Config} (h : config.Fits) :
    ofJson? config.toJson = some config := by
  -- a missing limit is written as null, and read back as none
  obtain ⟨tracing, _ | limit⟩ := config
  · have hfields := Json.fields?_record_pair "tracing_enabled" "step_limit" (by decide)
      (.bool tracing) .null
    rw [toJson, ofJson?, hfields]
    rfl
  · have hfields := Json.fields?_record_pair "tracing_enabled" "step_limit" (by decide)
      (.bool tracing) (.ofNat limit)
    have hlimit : (Json.ofNat limit).natBelow? stepLimitBound = some limit :=
      Json.natBelow?_ofNat (h limit rfl)
    rw [toJson, ofJson?, hfields]
    simp only [Option.getD_some, Json.nullable?_ofNat, hlimit]
    rfl

/-- **The configurations that fit are those that can be read.** -/
theorem exists_json_iff {config : Config} :
    (∃ value, ofJson? value = some config) ↔ config.Fits := by
  constructor
  · rintro ⟨value, hvalue⟩
    unfold ofJson? at hvalue
    split at hvalue
    · obtain ⟨tracing, -, hvalue⟩ := Option.bind_eq_some_iff.mp hvalue
      obtain ⟨stepLimit, hlimit, heq⟩ := Option.bind_eq_some_iff.mp hvalue
      cases heq
      -- a limit that was read is below the bound that the reader checks
      rintro limit rfl
      exact Json.lt_of_natBelow? (Json.of_nullable? hlimit)
    · cases hvalue
  · intro hfits
    exact ⟨config.toJson, ofJson?_toJson hfits⟩

end Config

namespace RunState

/-- The numbers of a latched fault are no wider than their fields. -/
def Fits : RunState → Prop
  | running | halted => True
  | faulted fault => fault.Fits

@[simp] theorem written_toJson (state : RunState) : Json.Written state.toJson := by
  cases state with
  | running => exact Json.written_ofText _
  | halted => exact Json.written_ofText _
  | faulted fault => exact Json.written_tagged _ fault.written_toJson

theorem ofJson?_toJson {state : RunState} (h : state.Fits) : ofJson? state.toJson = some state := by
  cases state with
  | running =>
    rw [toJson, ofJson?, Json.variant?_ofText]
    rfl
  | halted =>
    rw [toJson, ofJson?, Json.variant?_ofText]
    rfl
  | faulted fault =>
    have hfault : Fault.ofJson? fault.toJson = some fault := Fault.ofJson?_toJson h
    rw [toJson, ofJson?, Json.variant?_tagged]
    show (Fault.ofJson? fault.toJson).bind _ = _
    rw [hfault]
    rfl

/-- A run state that was read fits. -/
theorem fits_of_ofJson? {value : Json} {state : RunState} (h : ofJson? value = some state) :
    state.Fits := by
  cases state with
  | running => trivial
  | halted => trivial
  | faulted fault =>
    obtain ⟨⟨tag, content⟩, -, hcontent⟩ := Option.bind_eq_some_iff.mp h
    simp only at hcontent
    split at hcontent
    -- the names of the other states are read as these states or not at all
    · split at hcontent
      all_goals cases hcontent
    · split at hcontent
      all_goals cases hcontent
    · obtain ⟨details, -, hdetails⟩ := Option.bind_eq_some_iff.mp hcontent
      obtain ⟨_, hfault, heq⟩ := Option.bind_eq_some_iff.mp hdetails
      cases heq
      exact Fault.exists_json_iff.mp ⟨details, hfault⟩
    · cases hcontent

end RunState

@[simp] theorem SnapshotVersion.written_toJson (version : SnapshotVersion) :
    Json.Written version.toJson :=
  Json.written_ofText version.tag

theorem SnapshotVersion.ofJson?_toJson (version : SnapshotVersion) :
    ofJson? version.toJson = some version := by
  refine Json.unit?_ofText ?_
  cases version with
  | v1 => decide

namespace Snapshot

variable {snapshot : Snapshot}

/-- The numbers of a snapshot are no wider than their fields. The memory may have any length. -/
structure Fits (snapshot : Snapshot) : Prop where
  pc_lt : snapshot.pc < addressBound
  runState_fits : snapshot.runState.Fits

theorem written_toJson (snapshot : Snapshot) : Json.Written snapshot.toJson :=
  Json.written_record (by simp)

/-- A snapshot has its five fields, in their order. -/
theorem fields?_toJson (snapshot : Snapshot) :
    snapshot.toJson.fields? ["version", "pc", "registers", "memory", "run_state"] =
      some [some snapshot.version.toJson, some (.ofNat snapshot.pc),
        some (.ofBytes snapshot.registers.toList), some (.ofBytes snapshot.memory),
        some snapshot.runState.toJson] :=
  Json.fields?_record _ (by simp)

theorem ofJson?_toJson (h : snapshot.Fits) : ofJson? snapshot.toJson = some snapshot := by
  rw [ofJson?, fields?_toJson]
  simp only [SnapshotVersion.ofJson?_toJson, Json.natBelow?_ofNat h.pc_lt, Json.bytes?_ofBytes,
    RunState.ofJson?_toJson h.runState_fits, Option.bind_eq_bind, Option.bind_some,
    RegisterFile.ofList?_toList]
  rfl

/-- **The texts of a snapshot spell it.** -/
theorem roundTrips (snapshot : Snapshot) (h : snapshot.Fits) :
    snapshot.toJson.RoundTrips ofJson? snapshot :=
  Json.roundTrips snapshot.written_toJson (ofJson?_toJson h)

/-- **The snapshots that fit are those that some text spells.** So what was read can be written and
read again. -/
theorem exists_text_iff : (∃ text, ofText? text = some snapshot) ↔ snapshot.Fits := by
  constructor
  · rintro ⟨text, htext⟩
    obtain ⟨value, -, hvalue⟩ := Option.bind_eq_some_iff.mp htext
    unfold ofJson? at hvalue
    split at hvalue
    · simp only [Option.bind_eq_bind, Option.bind_eq_some_iff, Option.pure_def,
        Option.some.injEq] at hvalue
      obtain ⟨version, -, pc, hpc, bytes, -, registers, -, memory, -, state, hstate, rfl⟩ := hvalue
      -- of the fields, only the program counter and the fault have bounds to keep
      exact ⟨Json.lt_of_natBelow? hpc, RunState.fits_of_ofJson? hstate⟩
    · cases hvalue
  · intro hfits
    exact ⟨snapshot.compactText, (snapshot.roundTrips hfits).compact⟩

end Snapshot

/-- A machine is carried over to another one by the text of its snapshot. -/
structure Machine.CarriedByText (m t : Machine) : Prop where
  compact : (Snapshot.ofText? m.snapshot.compactText).map t.restore = some (.ok m)
  indented : (Snapshot.ofText? m.snapshot.indentedText).map t.restore = some (.ok m)

/-- **A machine is carried over by its text**, to any machine with the same configuration. -/
theorem Machine.carriedByText {m t : Machine} (hpc : m.pc ≤ 256) (hfits : m.runState.Fits)
    (hconfig : t.config = m.config) : m.CarriedByText t := by
  have hbound : 256 < addressBound := by decide
  -- the program counter is in range, so it fits, and the text spells the snapshot
  have htexts := m.snapshot.roundTrips ⟨hpc.trans_lt hbound, hfits⟩
  have hrestore : t.restore m.snapshot = .ok m := restore_snapshot_of_config hpc hconfig
  have hcompact : Snapshot.ofText? m.snapshot.compactText = some m.snapshot := htexts.compact
  have hindented : Snapshot.ofText? m.snapshot.indentedText = some m.snapshot := htexts.indented
  constructor
  · rw [hcompact, Option.map_some, hrestore]
  · rw [hindented, Option.map_some, hrestore]

namespace CommandLine

variable {options : Options} {response : Response Writer RunOutcome} {writer : Writer}

/-- Standard output ends in a text that spells the final state, behind what the program printed. -/
def Dumps (options : Options) (response : Response Writer RunOutcome) : Prop :=
  ∃ dumped, (options.report response).stdout = String.ofList response.sink.text ++ dumped ∧
    Snapshot.ofText? dumped = some response.machine.snapshot

/-- A write that succeeds appends everything. -/
theorem text_of_write {w : Writer} {cs : List Char} (h : w.write cs = (true, writer)) :
    writer.text = w.text ++ cs := by
  unfold Writer.write at h
  split at h
  · obtain ⟨-, rfl⟩ := Prod.mk.inj h
    rfl
  · next room _ =>
    obtain ⟨hroom, rfl⟩ := Prod.mk.inj h
    show w.text ++ cs.take room = w.text ++ cs
    rw [List.take_of_length_le (of_decide_eq_true hroom)]

/-- What is written as the final state spells it. -/
theorem dumps (hdump : options.dumpState = true) (hfits : response.machine.snapshot.Fits)
    (hwritten : response.sink.write (response.machine.snapshot.indentedText.toList ++ ['\n']) =
      (true, writer)) : Dumps options response := by
  refine ⟨response.machine.snapshot.indentedText ++ "\n", ?_, ?_⟩
  · rw [Options.report, if_pos hdump]
    simp only [hwritten]
    rw [text_of_write hwritten, String.ofList_append, String.ofList_append, String.ofList_toList]
  · exact (response.machine.snapshot.roundTrips hfits).line

end CommandLine

/-- **The JSON form loses nothing.** Faults, run states, configurations and snapshots are taken back
from their texts; a machine is carried over by the text of its snapshot; and a command that is asked
for the final state prints a text that spells it. -/
theorem json_round_trips :
    (∀ fault : Fault, fault.Fits → fault.toJson.RoundTrips Fault.ofJson? fault) ∧
      (∀ state : RunState, state.Fits → state.toJson.RoundTrips RunState.ofJson? state) ∧
      (∀ config : Config, config.Fits → config.toJson.RoundTrips Config.ofJson? config) ∧
      (∀ snapshot : Snapshot, snapshot.Fits →
        snapshot.toJson.RoundTrips Snapshot.ofJson? snapshot) ∧
      (∀ m t : Machine, m.pc ≤ 256 → m.runState.Fits → t.config = m.config → m.CarriedByText t) ∧
      ∀ (options : CommandLine.Options) (response : Response Writer RunOutcome),
        options.dumpState = true → response.machine.snapshot.Fits →
          ∀ writer, response.sink.write
              (response.machine.snapshot.indentedText.toList ++ ['\n']) = (true, writer) →
            CommandLine.Dumps options response := by
  refine ⟨?_, ?_, ?_, Snapshot.roundTrips, ?_, ?_⟩
  · intro fault hfits
    exact Json.roundTrips fault.written_toJson (Fault.ofJson?_toJson hfits)
  · intro state hfits
    exact Json.roundTrips state.written_toJson (RunState.ofJson?_toJson hfits)
  · intro config hfits
    exact Json.roundTrips config.written_toJson (Config.ofJson?_toJson hfits)
  · intro m t hpc hfits hconfig
    exact Machine.carriedByText hpc hfits hconfig
  · intro options response hdump hfits writer hwritten
    exact CommandLine.dumps hdump hfits hwritten

/-- A machine behind its last cell, stopped by a fault whose text needs every kind of escape. -/
def stoppedByText : Machine :=
  { Machine.withConfig { stepLimit := some 0xffffffffffffffff } with
    pc := 256, runState := .faulted (.unsupportedOperation "\"\\\n\x01é𝄞") }

/-- A snapshot of no machine: far beyond the memory, of which it has one cell. -/
def farAway : Snapshot where
  pc := 0xffffffffffffffff
  registers := .zero
  memory := [255]
  runState := .faulted (.addressOutOfRange .memory 0xffffffffffffffff)

/-- Every kind of value at its limits: the largest numbers, a memory of one cell and a text full of
escapes. -/
theorem json_round_trips_stoppedByText :
    stoppedByText.config.toJson.RoundTrips Config.ofJson? stoppedByText.config ∧
      stoppedByText.runState.toJson.RoundTrips RunState.ofJson? stoppedByText.runState ∧
      farAway.toJson.RoundTrips Snapshot.ofJson? farAway ∧
      (Fault.addressOutOfRange .memory 0xffffffffffffffff).toJson.RoundTrips Fault.ofJson?
        (.addressOutOfRange .memory 0xffffffffffffffff) ∧
      stoppedByText.CarriedByText (.withConfig stoppedByText.config) ∧
      CommandLine.Dumps { program := "text.ls8", dumpState := true }
        ⟨.error (.unsupportedOperation ""), stoppedByText, { room := none, text := ['7', '\n'] },
          []⟩ := by
  obtain ⟨hfault, hstate, hconfig, hsnapshot, hmachine, hdump⟩ := json_round_trips
  have hlimit : stoppedByText.config.Fits := by
    intro limit hlimit
    obtain rfl := Option.some.inj hlimit
    decide
  have haddress : (Fault.addressOutOfRange .memory 0xffffffffffffffff).Fits := by
    show 0xffffffffffffffff < addressBound
    decide
  have hfarAway : farAway.Fits := ⟨by decide, haddress⟩
  -- the reason of this fault is a text, and any text is representable
  have htext : stoppedByText.runState.Fits := trivial
  exact ⟨hconfig _ hlimit, hstate _ htext, hsnapshot _ hfarAway, hfault _ haddress,
    hmachine _ _ (by decide) htext rfl, hdump _ _ rfl ⟨by decide, htext⟩ _ rfl⟩

end LS8
