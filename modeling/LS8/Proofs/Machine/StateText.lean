import LS8.Proofs.Json.Indentation
import LS8.Proofs.Machine.FaultCause
import LS8.Proofs.Machine.Reach

/-!
# The text of a final state

A command prints the state in which its program ends as a JSON text. Which text this is can be said
without the functions that make it. `Machine.Shown` is the JSON value: an object with five members,
in their order, in which bytes and addresses are plain numerals and the run state is a word or, if a
fault is latched, an object with the details of the fault. Execution raises faults of three kinds
(`Machine.Explains`), so these are the ones that `Fault.Shown` lists. The text has one item a line
(`Json.block`).

`Machine.ShowsState` puts this together and adds what a reader of the text is after: the text spells
the snapshot of the machine. It holds of the indented text of a snapshot, with its line feed, for
every machine with a program counter in range and a run state that execution can reach
(`Machine.showsState`).
-/

namespace LS8

/-! ### What is shown -/

/-- The JSON values that show the faults of an execution. -/
inductive Fault.Shown : Fault → Json → Prop
  | memory (address : Nat) : Shown (.addressOutOfRange .memory address)
      (.object [("AddressOutOfRange".toList, .object [
        ("space".toList, .string "Memory".toList),
        ("address".toList, .number (Nat.toDigits 10 address))])])
  | registers (index : Nat) : Shown (.addressOutOfRange .registers index)
      (.object [("AddressOutOfRange".toList, .object [
        ("space".toList, .string "Registers".toList),
        ("address".toList, .number (Nat.toDigits 10 index))])])
  | illegal (opcode : UInt8) (pc : Nat) : Shown (.illegalInstruction opcode pc)
      (.object [("IllegalInstruction".toList, .object [
        ("opcode".toList, .number (Nat.toDigits 10 opcode.toNat)),
        ("pc".toList, .number (Nat.toDigits 10 pc))])])
  | output (pc : Nat) : Shown (.outputFailed pc)
      (.object [("OutputFailed".toList, .object [
        ("pc".toList, .number (Nat.toDigits 10 pc))])])

/-- The JSON values that show the run states of an execution. -/
inductive RunState.Shown : RunState → Json → Prop
  | running : Shown .running (.string "Running".toList)
  | halted : Shown .halted (.string "Halted".toList)
  | faulted (fault : Fault) (value : Json) (shown : fault.Shown value) :
      Shown (.faulted fault) (.object [("Faulted".toList, value)])

/-- The JSON values that show a machine. -/
inductive Machine.Shown (m : Machine) : Json → Prop
  | object (state : Json) (shown : m.runState.Shown state) : Shown m (.object [
      ("version".toList, .string "V1".toList),
      ("pc".toList, .number (Nat.toDigits 10 m.pc)),
      ("registers".toList,
        .array (m.registers.toList.map fun byte => .number (Nat.toDigits 10 byte.toNat))),
      ("memory".toList,
        .array (m.memory.toList.map fun byte => .number (Nat.toDigits 10 byte.toNat))),
      ("run_state".toList, state)])

/-- The text shows the state of a machine, as the JSON value `value`. -/
structure Machine.ShowsState (m : Machine) (value : Json) (text : String) : Prop where
  shown : m.Shown value
  read_eq : Json.read text = some value
  /-- One item a line, and every line is ended. -/
  lines_eq : text = String.join (value.block.map fun line => String.ofList line ++ "\n")
  ofText?_eq : Snapshot.ofText? text = some m.snapshot

/-! ### The written forms -/

namespace Json

/-- A name without special characters is written as it is. -/
def Unescaped (name : String) : Prop :=
  escape name.toList = name.toList

instance (name : String) : Decidable (Unescaped name) :=
  inferInstanceAs (Decidable (escape name.toList = name.toList))

/-- A text without characters to escape stands in quotes as it is. -/
theorem ofText_eq_string {text : String} (h : Unescaped text) : ofText text = string text.toList :=
  congrArg string h

/-- A record is the object of its fields, if no name needs an escape. -/
theorem record_eq_object (fields : List (String × Json))
    (h : ∀ name ∈ fields.map (·.1), Unescaped name) :
    record fields = object (fields.map fun field => (field.1.toList, field.2)) := by
  unfold record
  congr 1
  refine List.map_congr_left fun field hfield => ?_
  have hname : Unescaped field.1 := h field.1 (List.mem_map_of_mem hfield)
  exact congrArg (·, field.2) hname

/-- So a variant with a content is an object with one member. -/
theorem tagged_eq_object {name : String} (h : Unescaped name) (content : Json) :
    tagged name content = object [(name.toList, content)] :=
  record_eq_object [(name, content)] (List.forall_mem_singleton.mpr h)

end Json

/-- An address outside of a space is shown with the name of the space. -/
theorem Fault.toJson_addressOutOfRange (space : AddressSpace) (address : Nat) :
    (addressOutOfRange space address).toJson =
      .object [("AddressOutOfRange".toList, .object [("space".toList, .string space.tag.toList),
        ("address".toList, .number (Nat.toDigits 10 address))])] := by
  have htag : Json.Unescaped "AddressOutOfRange" := by decide
  have hnames : ∀ name ∈ ["space", "address"], Json.Unescaped name := by decide
  have hspace : Json.Unescaped space.tag := by cases space <;> decide
  have hdetails := Json.record_eq_object [("space", space.toJson), ("address", .ofNat address)] hnames
  show Json.tagged "AddressOutOfRange" (Json.record _) = _
  rw [Json.tagged_eq_object htag, hdetails, AddressSpace.toJson, Json.ofText_eq_string hspace]
  rfl

/-- **The faults of an execution are shown** by their JSON forms. -/
theorem Fault.shown_toJson {m : Machine} {offers : List (UInt8 × Bool)} {fault : Fault}
    (h : m.Explains offers fault) : fault.Shown fault.toJson := by
  -- an execution has four kinds of fault, and none of them holds a text
  cases h with
  | pastEnd =>
    rw [toJson_addressOutOfRange]
    exact .memory 256
  | misnamed opcode byte =>
    rw [toJson_addressOutOfRange]
    exact .registers byte.toNat
  | unassigned byte =>
    have htag : Json.Unescaped "IllegalInstruction" := by decide
    have hnames : ∀ name ∈ ["opcode", "pc"], Json.Unescaped name := by decide
    have hdetails := Json.record_eq_object [("opcode", .ofByte byte), ("pc", .ofNat m.pc)] hnames
    show Shown _ (Json.tagged "IllegalInstruction" (Json.record _))
    rw [Json.tagged_eq_object htag, hdetails]
    exact .illegal byte m.pc
  | unprinted src =>
    have htag : Json.Unescaped "OutputFailed" := by decide
    have hnames : ∀ name ∈ ["pc"], Json.Unescaped name := by decide
    have hdetails := Json.record_eq_object [("pc", .ofNat m.pc)] hnames
    show Shown _ (Json.tagged "OutputFailed" (Json.record _))
    rw [Json.tagged_eq_object htag, hdetails]
    exact .output m.pc

/-- The run states that an execution can reach: a latched fault is one that execution raises. -/
inductive RunState.Reached : RunState → Prop
  | running : Reached .running
  | halted : Reached .halted
  | faulted (m : Machine) (offers : List (UInt8 × Bool)) (fault : Fault)
      (explained : m.Explains offers fault) : Reached (.faulted fault)

/-- A run state is written by its name, with the fault in it where there is one. -/
theorem RunState.shown_toJson {state : RunState} (h : state.Reached) :
    state.Shown state.toJson := by
  -- the two states without a fault are written as their names
  cases h with
  | running =>
    have hname : Json.Unescaped "Running" := by decide
    rw [toJson, Json.ofText_eq_string hname]
    exact .running
  | halted =>
    have hname : Json.Unescaped "Halted" := by decide
    rw [toJson, Json.ofText_eq_string hname]
    exact .halted
  | faulted m offers fault explained =>
    have htag : Json.Unescaped "Faulted" := by decide
    rw [toJson, Json.tagged_eq_object htag]
    exact .faulted fault _ (Fault.shown_toJson explained)

namespace Machine

variable {m : Machine}

/-- The snapshot of a machine is the object that `Machine.Shown` describes. -/
theorem shown_toJson (h : m.runState.Reached) : m.Shown m.snapshot.toJson := by
  have hversion : Json.Unescaped "V1" := by decide
  have hnames : ∀ name ∈ ["version", "pc", "registers", "memory", "run_state"],
      Json.Unescaped name := by
    decide
  have hrecord := Json.record_eq_object [("version", m.snapshot.version.toJson),
    ("pc", .ofNat m.snapshot.pc), ("registers", .ofBytes m.snapshot.registers.toList),
    ("memory", .ofBytes m.snapshot.memory), ("run_state", m.snapshot.runState.toJson)] hnames
  have htag : m.snapshot.version.toJson = .string "V1".toList := Json.ofText_eq_string hversion
  rw [Snapshot.toJson, hrecord, htag]
  exact .object _ (RunState.shown_toJson h)

/-- **The indented text of a snapshot, with its line feed, shows the machine.** -/
theorem showsState (hpc : m.pc ≤ 256) (hfits : m.runState.Fits) (h : m.runState.Reached) :
    m.ShowsState m.snapshot.toJson (m.snapshot.indentedText ++ "\n") where
  shown := shown_toJson h
  read_eq := by
    have hfeed : ∀ c ∈ ['\n'], Json.isJsonBlank c = true := List.forall_mem_singleton.mpr rfl
    have hread := Json.read_write Json.Layout.blank_indented m.snapshot.written_toJson hfeed
    rwa [String.ofList_append] at hread
  lines_eq := Json.indented_line m.snapshot.written_toJson
  ofText?_eq := by
    have hbound : 256 < addressBound := by decide
    exact (m.snapshot.roundTrips ⟨hpc.trans_lt hbound, hfits⟩).line

end Machine

/-! ### After a run -/

namespace Stage

variable {σ : Type} {c : Stage σ}

/-- A run latches only faults that execution raises. -/
theorem reached_runLoop (sink : Sink σ) (stop : σ → Bool) (limit : Option Nat)
    (hc : c.machine.runState = .running) (hpc : c.machine.pc ≤ 256) :
    (c.runLoop sink stop limit).machine.runState.Reached := by
  have hstate := runState_runLoop sink stop limit c
  cases hm : (c.runLoop sink stop limit).machine.runState with
  | running => exact .running
  | halted => exact .halted
  | faulted fault =>
    -- what is latched is what the run has reported, and that is explained by what it leaves
    rw [hm] at hstate
    obtain ⟨_, hexplained⟩ :=
      exists_explainedFault hc hpc (eq_error_of_reportedState hstate.symm)
    exact .faulted _ _ fault hexplained.explains

/-- **The machine that a run leaves can be shown**, however the run ends. -/
theorem showsState_runLoop (sink : Sink σ) (stop : σ → Bool) (limit : Option Nat)
    (hc : c.machine.runState = .running) (hpc : c.machine.pc ≤ 256) :
    let m := (c.runLoop sink stop limit).machine
    m.ShowsState m.snapshot.toJson (m.snapshot.indentedText ++ "\n") := by
  have hfits : c.machine.runState.Fits := by
    rw [hc]
    trivial
  have hreach : (c.runLoop sink stop limit).stage.InReach c.machine.config :=
    runLoop_induction (P := fun d => d.InReach c.machine.config) ⟨⟨hpc, rfl⟩, hfits⟩
      fun _ => inReach_next sink
  exact Machine.showsState hreach.keeps.pc_le hreach.fits (reached_runLoop sink stop limit hc hpc)

end Stage

end LS8
