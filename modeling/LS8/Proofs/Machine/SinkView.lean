import LS8.Proofs.Machine.Offers
import LS8.Proofs.Sink.Lines

/-!
# Sinks that are views of each other

What a sink makes of the values that it takes is its own business: one keeps them, another writes
them as lines of text. `Sink.View` relates two sinks whose states go along with each other, in that
one state can be computed from the other one and stays so computed when both are offered the same
value, and accept it or not alike. An execution cannot tell the two apart. Their step requests, and
so their runs, are the same but for the view (`Stage.step_view`, `Stage.runLoop_view`).

A writer that never runs out of room is a view of the list of all values
(`Sink.view_decimalLines`), which reduces what is printed to what is emitted.
-/

namespace LS8

variable {σ τ : Type}

/-- The state of one sink is computed from that of another by `view`, before a value is offered and
after, and both sinks give the same answer to it. -/
structure Sink.View (sink : Sink σ) (sink' : Sink τ) (view : σ → τ) : Prop where
  emit_eq : ∀ s value,
    sink'.emit (view s) value = ((sink.emit s value).1, view (sink.emit s value).2)

namespace Stage

variable {sink : Sink σ} {sink' : Sink τ} {view : σ → τ} {stop : τ → Bool} {c : Stage σ}

/-- The same machine in front of the view. -/
def viewed (view : σ → τ) (c : Stage σ) : Stage τ := ⟨c.machine, view c.sink⟩

/-- A viewed sink hears what the sink hears. -/
theorem heard_view (h : sink.View sink' view) :
    (c.viewed view).heard sink' = view (c.heard sink) := by
  unfold heard viewed
  cases c.machine.print? with
  | none => rfl
  | some value => exact congrArg Prod.snd (h.emit_eq c.sink value)

/-- **A step does not see through a view.** -/
theorem step_view (h : sink.View sink' view) :
    (c.viewed view).step sink' = (c.step sink).mapSink view := by
  have hmachine : (c.viewed view).machine = c.machine := rfl
  have hanswer : ∀ value ∈ c.machine.print?,
      (sink'.emit (c.viewed view).sink value).1 = (sink.emit c.sink value).1 :=
    fun value _ => congrArg Prod.fst (h.emit_eq c.sink value)
  -- a step looks at nothing of the sink but the answer
  rw [step_of_answers hmachine hanswer, heard_view h, ← sink_step]
  rfl

/-- One request goes on alike under the view. -/
theorem next_view (h : sink.View sink' view) :
    (c.viewed view).next sink' = (c.next sink).viewed view := by
  rw [next, step_view h]
  rfl

/-- So does every stretch. -/
theorem after_view (h : sink.View sink' view) (n : Nat) :
    (c.viewed view).after sink' n = (c.after sink n).viewed view := by
  induction n with
  | zero => rfl
  | succ n ih => rw [after_succ', after_succ', ih, next_view h]

/-- The events do not depend on the view. -/
theorem events_view (h : sink.View sink' view) (n : Nat) :
    (c.viewed view).events sink' n = c.events sink n := by
  induction n generalizing c with
  | zero => rfl
  | succ n ih =>
    rw [events_succ, events_succ, next_view h, ih, step_view h]
    rfl

/-- **A run under a view goes like the run itself.** -/
theorem alike_view (h : sink.View sink' view) (n : Nat) :
    Alike sink (fun s => stop (view s)) c sink' stop (c.viewed view) n where
  -- the view commutes with every request, and with the signal by its definition
  result_eq := by
    intro i _
    rw [after_view h, step_view h]
    rfl
  atHalt_eq := by
    intro i _
    rw [after_view h]
    rfl
  stop_eq := by
    intro i _
    rw [after_view h]
    rfl

/-- **A run does not see through a view.** -/
theorem runLoop_view (h : sink.View sink' view) (stop : τ → Bool) (limit : Option Nat)
    (hc : c.machine.runState = .running) :
    (c.viewed view).runLoop sink' stop limit =
      (c.runLoop sink (fun s => stop (view s)) limit).mapSink view := by
  have hc' : (c.viewed view).machine.runState = .running := hc
  -- both runs make the same requests, and the last of them is answered alike
  obtain ⟨n, result, hcourse⟩ := exists_course sink (fun s => stop (view s)) limit hc
  calc (c.viewed view).runLoop sink' stop limit
      = (c.viewed view).answer sink' n result :=
        (hcourse.transfer (alike_view h n)).runLoop_eq hc'
    _ = (c.answer sink n result).mapSink view := by
        rw [answer, after_view h, events_view h]
        rfl
    _ = (c.runLoop sink (fun s => stop (view s)) limit).mapSink view := by
        rw [hcourse.runLoop_eq hc]

end Stage

/-! ### Lines of text -/

/-- A writer with room for everything, after the given values were printed to it. -/
def Writer.holding (values : List UInt8) : Writer :=
  { room := none, text := values.flatMap decimalLine }

/-- **Text without limits shows what was emitted.** -/
theorem Sink.view_decimalLines : Sink.collect.View Sink.decimalLines Writer.holding where
  emit_eq := by
    intro values value
    -- the line of one more value stands behind the lines of the others
    have htext : (values ++ [value]).flatMap decimalLine =
        values.flatMap decimalLine ++ decimalLine value := by
      rw [List.flatMap_append, List.flatMap_singleton]
    change _ = (true, ({ room := none, text := (values ++ [value]).flatMap decimalLine } : Writer))
    rw [Sink.emit_decimalLines, htext]
    rfl

/-- A run that prints lines is the run that collects its values. -/
theorem Machine.run_decimalLines {m : Machine} (hm : m.runState = .running) :
    m.run .decimalLines { room := none } = (m.run .collect []).mapSink .holding :=
  Stage.runLoop_view (c := ⟨m, []⟩) Sink.view_decimalLines (fun _ => false) m.config.stepLimit hm

end LS8
