import LS8.Fault.Json
import LS8.Json.Reader
import LS8.Json.Writer
import LS8.Machine.Snapshot

/-!
# Machine states in JSON

Configurations, run states and snapshots as JSON values, and snapshots as texts. The text of a
snapshot is what a program's final state is reported as, and what a machine can be restored from.
-/

namespace LS8

namespace Config

/-- A configuration in JSON. -/
def toJson (config : Config) : Json :=
  .record [("tracing_enabled", .bool config.tracing),
    ("step_limit", match config.stepLimit with
      | some limit => .ofNat limit
      | none => .null)]

/-- The configuration that a JSON value spells. The step limit may be missing. -/
def ofJson? (value : Json) : Option Config :=
  match value.fields? ["tracing_enabled", "step_limit"] with
  | some [some tracing, limit] => do
    return {
      tracing := ← tracing.bool?
      -- a missing limit is read like a `null`
      stepLimit := ← (limit.getD .null).nullable? (Json.natBelow? stepLimitBound) }
  | _ => none

end Config

namespace RunState

/-- A run state in JSON. -/
def toJson : RunState → Json
  | running => .ofText "Running"
  | halted => .ofText "Halted"
  | faulted fault => .tagged "Faulted" fault.toJson

/-- The run state that a JSON value spells. -/
def ofJson? (value : Json) : Option RunState := do
  let (tag, content) ← value.variant?
  match tag with
  | "Running" => if Json.noContent content then some running else none
  | "Halted" => if Json.noContent content then some halted else none
  | "Faulted" => return faulted (← Fault.ofJson? (← content))
  | _ => none

end RunState

namespace SnapshotVersion

/-- The name of a layout in JSON. -/
def tag : SnapshotVersion → String
  | v1 => "V1"

/-- A layout in JSON. -/
def toJson (version : SnapshotVersion) : Json := .ofText version.tag

/-- The layout that a JSON value names. -/
def ofJson? (value : Json) : Option SnapshotVersion := value.unit? [v1] tag

end SnapshotVersion

namespace Snapshot

/-- A snapshot in JSON. -/
def toJson (snapshot : Snapshot) : Json :=
  .record [("version", snapshot.version.toJson), ("pc", .ofNat snapshot.pc),
    ("registers", .ofBytes snapshot.registers.toList), ("memory", .ofBytes snapshot.memory),
    ("run_state", snapshot.runState.toJson)]

/-- The snapshot that a JSON value spells. -/
def ofJson? (value : Json) : Option Snapshot :=
  match value.fields? ["version", "pc", "registers", "memory", "run_state"] with
  | some [some version, some pc, some registers, some memory, some runState] => do
    return {
      version := ← SnapshotVersion.ofJson? version
      pc := ← pc.natBelow? addressBound
      registers := ← RegisterFile.ofList? (← registers.bytes?)
      memory := ← memory.bytes?
      runState := ← RunState.ofJson? runState }
  | _ => none

/-- The text of a snapshot without blanks. -/
def compactText (snapshot : Snapshot) : String := snapshot.toJson.compact

/-- The text of a snapshot with one item a line. -/
def indentedText (snapshot : Snapshot) : String := snapshot.toJson.indented

/-- The snapshot that a text spells. -/
def ofText? (text : String) : Option Snapshot := do
  ofJson? (← Json.read text)

end Snapshot

end LS8
