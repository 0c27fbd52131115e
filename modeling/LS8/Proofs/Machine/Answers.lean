import LS8.Proofs.Machine.Session

/-!
# What a session answers

`Call.perform` says what a call leaves of the machine and of the sink. A host also sees what the
call gives back (`Call.answer`), and, if it passes a listener along, the events that the call
reports (`Call.reported`). Only a single step and a run under the configured limit have a form with
a listener; the other calls report nothing to anyone.

An `Attended` call names the listener that it is made with, if any, and `Stage.attend` is a whole
session of such calls: the answers in order, the stage behind them, and what the listeners have made
of the events.
-/

namespace LS8

/-- What a call gives back. -/
inductive Answer where
  | done (result : Except Fault Unit)
  | computed (result : Except Fault UInt8)
  | stepped (result : Except Fault StepOutcome)
  | ran (result : Except Fault RunOutcome)

variable {σ τ : Type}

namespace Call

/-- What a call gives back to the host. -/
def answer : Call σ → Stage σ → Answer
  | load image, c => .done ((c.machine.load image).map fun _ => ())
  | reset, _ => .done (.ok ())
  | step sink, c => .stepped (c.step sink).result
  | run sink, c => .ran (c.run sink).result
  | runWithLimit sink limit, c => .ran (c.runWithLimit sink limit).result
  | runUntil sink stop, c => .ran (c.runUntil sink stop).result
  | alu op dest src, c => .computed ((c.machine.alu op dest src).map (·.1))
  | write address byte, c => .done ((c.machine.write address byte).map fun _ => ())
  | writeValue address value, c => .done ((c.machine.writeValue address value).map fun _ => ())
  | patch _, _ => .done (.ok ())
  | restore snapshot, c => .done ((c.machine.restore snapshot).map fun _ => ())

/-- The events that a call reports to a listener. -/
def reported : Call σ → Stage σ → List TraceEvent
  | step sink, c => (c.step sink).events
  | run sink, c => (c.run sink).events
  | _, _ => []

end Call

/-- A listener to trace events, with states of type `τ`. -/
structure Listener (τ : Type) where
  /-- What an event makes of the state. -/
  hear : τ → TraceEvent → τ

/-- A call as a host makes it: in the form without a listener, or with one. -/
structure Attended (σ τ : Type) where
  call : Call σ
  listener : Option (Listener τ) := none

/-- What a call makes of the state of the listeners. -/
def Attended.heard (a : Attended σ τ) (c : Stage σ) (t : τ) : τ :=
  match a.listener with
  | some listener => (a.call.reported c).foldl listener.hear t
  | none => t

/-- Where nothing is reported, a listener hears nothing. -/
theorem Attended.heard_of_silent {a : Attended σ τ} {c : Stage σ} (h : a.call.reported c = [])
    (t : τ) : a.heard c t = t := by
  unfold heard
  rw [h]
  cases a.listener with
  | none => rfl
  | some listener => rfl

/-- What a session gives back and leaves. -/
structure Proceedings (σ τ : Type) where
  answers : List Answer
  stage : Stage σ
  /-- What the listeners have made of the events. -/
  heard : τ

/-- A session of attended calls. -/
def Stage.attend (c : Stage σ) (t : τ) : List (Attended σ τ) → Proceedings σ τ
  | [] => ⟨[], c, t⟩
  | a :: later =>
    let rest := (a.call.perform c).attend (a.heard c t) later
    { rest with answers := a.call.answer c :: rest.answers }

end LS8
