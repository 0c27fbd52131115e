import LS8.Proofs.Instruction.Refusal
import LS8.Proofs.Machine.CutShort
import LS8.Proofs.Sink.Lines

/-!
# Runs that print to a device with limited room

A run hands the values that it prints to its sink one after another (`Stage.emitAll_offersOf`). If
the sink accepts all of them, they are those of the collecting run, and no output fails. Otherwise
they are a first part of those of the collecting run, the last of them is the only one that is
refused, and the run reports it (`Stage.exists_handed`).

With the lines of a device with limited room (`Sink.emitAll_linesTo`) this fixes the text that a run
leaves. A run is cut only if its lines are longer than the room, and then the lines of the values
that it still handed over fill the room already, so it makes no difference to the text that the
others are missing (`Stage.printsWithin`).
-/

namespace LS8

variable {σ δ : Type}

namespace Stage

variable {sink : Sink σ} {stop : σ → Bool} {limit : Option Nat} {c : Stage σ} {n pc : Nat}

/-! ### What a run hands to its sink -/

/-- A step hands its sink what it offers. -/
theorem emitAll_offers (sink : Sink σ) (c : Stage σ) :
    sink.emitAll c.sink ((c.offers sink).map (·.1)) =
      ((c.offers sink).map (·.2), (c.next sink).sink) := by
  have hsink : (c.next sink).sink = c.heard sink := sink_step sink c
  rw [values_offers, offers_eq, hsink, heard]
  cases c.machine.print? <;> rfl

/-- **So does a stretch**: emitting its offers one after another has the same answers and the same
sink. -/
theorem emitAll_offersOf (sink : Sink σ) (c : Stage σ) (n : Nat) :
    sink.emitAll c.sink ((c.offersOf sink n).map (·.1)) =
      ((c.offersOf sink n).map (·.2), (c.after sink n).sink) := by
  -- a further request offers one value more, or none
  induction n with
  | zero => rfl
  | succ n ih =>
    rw [offersOf_succ, List.map_append, Sink.emitAll_append, ih, emitAll_offers, List.map_append,
      after_succ']

/-- Only a refusal is reported as a failed output. -/
theorem refused_of_outputFailed (hc : c.machine.runState = .running)
    (h : (c.step sink).result = .error (.outputFailed pc)) :
    ∃ value, c.offers sink = [(value, false)] := by
  rcases offers_of_error hc h with ⟨-, hdecode⟩ | ⟨value, hone, -⟩
  · -- no decoder reports that
    rcases error_of_decode hdecode with ⟨opcode, -, hfault⟩ | ⟨space, index, -, hfault⟩
    · cases hfault
    · cases hfault
  · exact ⟨value, hone⟩

/-- A run that reports a failed output was refused a value. -/
theorem Course.not_acceptsAll (hc : c.machine.runState = .running)
    (h : Course sink stop limit c n (.error (.outputFailed pc))) : ¬ c.AcceptsAll sink n := by
  intro hall
  cases h with
  | faulted k hadv _ _ fault hend =>
    obtain ⟨value, hvalue⟩ := refused_of_outputFailed (runState_after hc hadv) hend
    have hfalse := hall.offers (Nat.lt_succ_self k) (value, false) (hvalue ▸ List.mem_cons_self)
    cases hfalse

/-- Where not everything is accepted, there is a first value that is not. -/
theorem exists_refused (h : ¬ c.AcceptsAll sink n) :
    ∃ before value later, c.offersOf sink n = before ++ (value, false) :: later := by
  obtain ⟨⟨value, accepted⟩, hmem, hrefused⟩ : ∃ offer ∈ c.offersOf sink n, offer.2 ≠ true := by
    simpa [AcceptsAll] using h
  obtain rfl : accepted = false := Bool.eq_false_iff.mpr hrefused
  obtain ⟨before, later, hoffers⟩ := List.mem_iff_append.mp hmem
  exact ⟨before, value, later, hoffers⟩

/-- The values that a run hands to its sink are those of the collecting run, or a first part of
them. -/
inductive Handed (sink : Sink σ) (limit : Option Nat) (c : Stage σ) (values : List UInt8) : Prop
  | all (values_eq : values = ((c.collecting []).runUnder .collect limit).sink)
      (accepted : ∀ answer ∈ (sink.emitAll c.sink values).1, answer = true)
      (result_ne : ∀ pc, (c.runUnder sink limit).result ≠ .error (.outputFailed pc))
  | part (first : values <+: ((c.collecting []).runUnder .collect limit).sink)
      (refused : (sink.emitAll c.sink values).1.getLast? = some false)
      (pc : Nat) (result_eq : (c.runUnder sink limit).result = .error (.outputFailed pc))

section Course

variable {result : Except Fault RunOutcome} {before later : List (UInt8 × Bool)} {value : UInt8}
variable (hc : c.machine.runState = .running)
  (hcourse : Course sink (fun _ => false) limit c n result)

include hc hcourse

/-- A run that nothing was refused to hands on all its values. -/
theorem handed_of_acceptsAll (hall : c.AcceptsAll sink n) :
    Handed sink limit c ((c.offersOf sink n).map (·.1)) := by
  refine .all (uncut_of_acceptsAll hc hcourse hall).values_eq ?_ ?_
  · intro answer hanswer
    rw [emitAll_offersOf] at hanswer
    obtain ⟨offer, hoffer, rfl⟩ := List.mem_map.mp hanswer
    exact hall offer hoffer
  · intro pc hresult
    have hrun : c.runUnder sink limit = c.answer sink n result := hcourse.runLoop_eq hc
    rw [hrun] at hresult
    -- a refused output would have been among the offers
    obtain rfl : result = .error (.outputFailed pc) := hresult
    exact hcourse.not_acceptsAll hc hall

/-- A run ends with the first value that is refused to it. -/
theorem handed_of_refused (hoffers : c.offersOf sink n = before ++ (value, false) :: later) :
    Handed sink limit c ((c.offersOf sink n).map (·.1)) := by
  have hc' : (c.collecting []).machine.runState = .running := hc
  obtain ⟨N, R, hcollect⟩ := exists_course .collect (fun _ => false) limit hc'
  obtain ⟨print, -, hcut⟩ := exists_cutShort hc hcourse hcollect hoffers
  obtain ⟨k, hbehind⟩ := exists_refusedBehind hc hcourse hoffers
  refine .part ?_ ?_ print.machine.pc hcut.result_eq
  · rw [hcut.values_eq]
    exact List.take_prefix _ _
  -- nothing is offered behind the refused value, so its answer is the last one
  · rw [emitAll_offersOf, hoffers, hbehind.later_eq, List.map_append, List.map_singleton,
      List.getLast?_concat]

end Course

/-- **A run does nothing else to its sink than to hand values to it**, up to the first one that is
refused. -/
theorem exists_handed (sink : Sink σ) (limit : Option Nat) (hc : c.machine.runState = .running) :
    ∃ values, (c.runUnder sink limit).sink = (sink.emitAll c.sink values).2 ∧
      Handed sink limit c values := by
  obtain ⟨n, result, hcourse⟩ := exists_course sink (fun _ => false) limit hc
  have hrun : c.runUnder sink limit = c.answer sink n result := hcourse.runLoop_eq hc
  refine ⟨(c.offersOf sink n).map (·.1), ?_, ?_⟩
  · rw [hrun, emitAll_offersOf]
    rfl
  -- either everything was accepted, or the run was cut short at the first refusal
  · by_cases hall : c.AcceptsAll sink n
    · exact handed_of_acceptsAll hc hcourse hall
    · obtain ⟨before, value, later, hoffers⟩ := exists_refused hall
      exact handed_of_refused hc hcourse hoffers

end Stage

/-! ### Limited room -/

variable {device : Device δ} {room : δ → Option Nat} {text : δ → List Char} {r : Nat} {s : δ}

/-- What becomes of values that are offered one after another, as lines, to a device with room for
`r` characters. -/
structure Sink.LinesWithin (device : Device δ) (text : δ → List Char) (s : δ) (r : Nat)
    (values : List UInt8) : Prop where
  text_eq : text ((Sink.linesTo device).emitAll s values).2 =
    text s ++ (values.flatMap decimalLine).take r
  answers_eq : ∀ i < values.length, ((Sink.linesTo device).emitAll s values).1[i]? =
    some (decide (((values.take (i + 1)).flatMap decimalLine).length ≤ r))

/-- The lines of the values that a run prints if it is never refused one. -/
def Stage.rendering (limit : Option Nat) (c : Stage σ) : List Char :=
  ((c.collecting []).runUnder .collect limit).sink.flatMap decimalLine

/-- What a run leaves behind that prints lines to a device with room for `r` characters. -/
structure Stage.PrintsWithin (device : Device δ) (text : δ → List Char) (limit : Option Nat)
    (c : Stage δ) (r : Nat) : Prop where
  text_eq : text (c.runUnder (.linesTo device) limit).sink =
    text c.sink ++ (c.rendering limit).take r
  fails_iff : (∃ pc, (c.runUnder (.linesTo device) limit).result = .error (.outputFailed pc)) ↔
    r < (c.rendering limit).length

/-- **A run prints what fits**, whatever the limit is. -/
theorem Stage.printsWithin (h : device.Limited room text) {c : Stage δ}
    (hr : room c.sink = some r) (limit : Option Nat) (hc : c.machine.runState = .running) :
    c.PrintsWithin device text limit r := by
  obtain ⟨values, hsink, hhanded⟩ := exists_handed (.linesTo device) limit hc
  obtain ⟨hfilled, -⟩ := Sink.emitAll_linesTo h hr values
  rw [← hsink] at hfilled
  cases hhanded with
  | all hvalues haccepted hresult =>
    have hrendering : c.rendering limit = values.flatMap decimalLine := by rw [rendering, hvalues]
    have hfits := Sink.length_le_of_accepted h hr haccepted
    refine ⟨by rw [hfilled.text_eq, hrendering], ?_⟩
    rw [hrendering]
    exact iff_of_false (fun ⟨pc, hpc⟩ => hresult pc hpc) (Nat.not_lt.mpr hfits)
  | part hfirst hrefused pc hresult =>
    obtain ⟨rest, hrest⟩ := hfirst
    have hrendering : c.rendering limit =
        values.flatMap decimalLine ++ rest.flatMap decimalLine := by
      rw [rendering, ← hrest, List.flatMap_append]
    -- the room ends within the lines that were handed over
    have hlong := Sink.lt_length_of_refused h hr hrefused
    refine ⟨?_, ?_⟩
    · rw [hfilled.text_eq, hrendering, List.take_append_of_le_length (Nat.le_of_lt hlong)]
    · rw [hrendering, List.length_append]
      exact iff_of_true ⟨pc, hresult⟩ (Nat.lt_add_right _ hlong)

/-- **Limited room cuts the text and nothing else.** The device has taken the first part of the lines
of all values that were offered, as many characters as there was room for, even if some of them were
offered behind a refused one. A value was accepted if there was room for all lines up to its own. And
so a run leaves the first part of what it would have printed without limits, and its output fails if
this is not all. The lines are decimal numerals, and a character of them is a byte. -/
theorem lines_within_room (h : device.Limited room text) :
    (∀ s r, room s = some r → ∀ values, Sink.LinesWithin device text s r values) ∧
      (∀ (c : Stage δ) r limit, room c.sink = some r → c.machine.runState = .running →
        c.PrintsWithin device text limit r) ∧
      ∀ value, IsDecimalLine value (decimalLine value) ∧
        ∀ character ∈ decimalLine value, character.utf8Size = 1 := by
  refine ⟨?_, ?_, ?_⟩
  · intro s r hr values
    obtain ⟨hfilled, hanswers⟩ := Sink.emitAll_linesTo h hr values
    exact ⟨hfilled.text_eq, hanswers⟩
  · intro c r limit hr hc
    exact Stage.printsWithin h hr limit hc
  · intro value
    exact ⟨isDecimalLine_decimalLine value, fun _ => utf8Size_of_mem_decimalLine⟩

/-- The room of a writer ends behind two digits of the second value, and in a run behind the first
digit of a square. -/
theorem lines_within_room_writer :
    Writer.device.Limited Writer.room Writer.text ∧
      ((Sink.linesTo Writer.device).emitAll ⟨some 4, []⟩ [7, 255, 0, 12]).2.text =
        ['7', '\n', '2', '5'] ∧
      ((Sink.linesTo Writer.device).emitAll ⟨some 4, []⟩ [7, 255, 0, 12]).1[1]? = some false ∧
      ((⟨Stage.printsSquare.machine, ⟨some 3, []⟩⟩ : Stage Writer).runUnder
        (.linesTo Writer.device) none).sink.text = ['5', '\n', '2'] := by
  obtain ⟨hlines, hruns, -⟩ := lines_within_room Writer.limited
  -- the second value needs four characters and finds two
  have hvalues := hlines ⟨some 4, []⟩ 4 rfl [7, 255, 0, 12]
  have hrun := hruns ⟨Stage.printsSquare.machine, ⟨some 3, []⟩⟩ 3 none rfl rfl
  refine ⟨Writer.limited, ?_, ?_, ?_⟩
  · rw [hvalues.text_eq]
    decide
  · rw [hvalues.answers_eq 1 (by decide)]
    decide
  · rw [hrun.text_eq]
    decide +kernel

end LS8
