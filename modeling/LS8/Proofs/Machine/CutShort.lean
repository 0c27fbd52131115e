import Mathlib.Data.List.Basic
import LS8.Proofs.Machine.Offers
import LS8.Proofs.Machine.Session

/-!
# Output that fails

A sink has no other way into an execution than by refusing a value. So a run to any sink goes along
with the same run to `Sink.collect`, which refuses nothing, as long as its own sink refuses nothing
(`Stage.after_collecting`), and if that is to the end, the two runs are the same.

At the first refusal the run that collects goes on, and the other one ends. The refused value is the
next one that the collecting run prints, so the place where the run was cut is one of its print
instructions (`Stage.getElem?_prints`), the one whose number is that of the offer. Behind the cut
the machine is faulted, and a faulted machine asks no sink for anything.
-/

namespace LS8

variable {σ : Type}

namespace Stage

variable {sink : Sink σ} {limit : Option Nat} {c : Stage σ} {taken : List UInt8} {k n : Nat}

/-- A run under a step limit, or under none, without a stop signal. -/
def runUnder (sink : Sink σ) (limit : Option Nat) (c : Stage σ) : Response σ RunOutcome :=
  c.runLoop sink (fun _ => false) limit

/-- The same machine in front of a sink that has collected the values in `taken`. -/
def collecting (c : Stage σ) (taken : List UInt8) : Stage (List UInt8) :=
  ⟨c.machine, taken⟩

/-! ### Offers of a stretch of requests -/

/-- An offer of a stretch was made by one of its requests. -/
theorem mem_offersOf {offer : UInt8 × Bool} :
    offer ∈ c.offersOf sink n ↔ ∃ i < n, offer ∈ (c.after sink i).offers sink := by
  unfold offersOf
  rw [List.mem_flatMap]
  constructor
  · rintro ⟨d, hd, hoffer⟩
    obtain ⟨i, hi, rfl⟩ := mem_path.mp hd
    exact ⟨i, hi, hoffer⟩
  · rintro ⟨i, hi, hoffer⟩
    exact ⟨c.after sink i, mem_path.mpr ⟨i, hi, rfl⟩, hoffer⟩

/-- The sink refuses nothing of what the first `n` requests offer. -/
def AcceptsAll (sink : Sink σ) (c : Stage σ) (n : Nat) : Prop :=
  ∀ offer ∈ c.offersOf sink n, offer.2 = true

/-- Where everything is accepted, everything is accepted in a part of it. -/
theorem AcceptsAll.mono (h : c.AcceptsAll sink n) (hk : k ≤ n) : c.AcceptsAll sink k := by
  intro offer hoffer
  obtain ⟨i, hi, hmem⟩ := mem_offersOf.mp hoffer
  exact h offer (mem_offersOf.mpr ⟨i, Nat.lt_of_lt_of_le hi hk, hmem⟩)

theorem AcceptsAll.offers (h : c.AcceptsAll sink n) (hk : k < n) :
    ∀ offer ∈ (c.after sink k).offers sink, offer.2 = true :=
  fun offer hoffer => h offer (mem_offersOf.mpr ⟨k, hk, hoffer⟩)

/-- A refused value is not followed by a retirement, so a stretch has none. -/
theorem Advances.acceptsAll (h : c.Advances sink n) : c.AcceptsAll sink n := by
  intro offer hoffer
  obtain ⟨i, hi, hmem⟩ := mem_offersOf.mp hoffer
  exact accepts_of_retires (h i hi) offer hmem

/-- A list takes every value. -/
theorem acceptsAll_collect (c : Stage (List UInt8)) (n : Nat) : c.AcceptsAll .collect n := by
  intro offer hoffer
  obtain ⟨i, -, hmem⟩ := mem_offersOf.mp hoffer
  rw [offers_eq] at hmem
  obtain ⟨value, -, rfl⟩ := List.mem_map.mp hmem
  rfl

/-! ### Along with the collecting run -/

/-- The list that stands in for the sink takes the values that are offered. -/
theorem heard_collecting (sink : Sink σ) : (c.collecting taken).heard .collect =
    taken ++ (c.offers sink).map (·.1) := by
  rw [values_offers]
  unfold heard collecting
  cases c.machine.print? with
  | none => simp
  | some value => simp [Sink.collect]

/-- As long as nothing is refused, a step does not know which of the two sinks it has. -/
theorem step_collecting (h : ∀ offer ∈ c.offers sink, offer.2 = true) :
    (c.collecting taken).step .collect =
      (c.step sink).mapSink fun _ => taken ++ (c.offers sink).map (·.1) := by
  have hmachine : (c.collecting taken).machine = c.machine := rfl
  -- the two sinks give the same answer to the value that is printed, if there is one
  have hanswer : ∀ value ∈ c.machine.print?,
      (Sink.collect.emit (c.collecting taken).sink value).1 = (sink.emit c.sink value).1 := by
    intro value hvalue
    have hoffer : (value, (sink.emit c.sink value).1) ∈ c.offers sink := by
      rw [offers_eq]
      exact List.mem_map.mpr ⟨value, Option.mem_toList.mpr hvalue, rfl⟩
    exact (h _ hoffer).symm
  rw [step_of_answers hmachine hanswer, heard_collecting sink]
  rfl

/-- **Requests that are refused nothing do the same as collecting ones.** -/
theorem after_collecting (h : c.AcceptsAll sink n) :
    (c.collecting taken).after .collect n =
      (c.after sink n).collecting (taken ++ (c.offersOf sink n).map (·.1)) := by
  induction n with
  | zero => simp [offersOf, path, collecting]
  | succ n ih =>
    rw [after_succ', ih (h.mono (Nat.le_succ n)), next,
      step_collecting (h.offers (Nat.lt_succ_self n)), offersOf_succ, List.map_append,
      ← List.append_assoc, after_succ']
    rfl

/-- So the stretch is the same up to the first refusal, under either sink. -/
theorem alike_collecting (taken : List UInt8) (h : c.AcceptsAll sink n) :
    Alike sink (fun _ => false) c .collect (fun _ => false) (c.collecting taken) n where
  result_eq := by
    intro i hi
    rw [after_collecting (h.mono (Nat.le_of_lt hi)), step_collecting (h.offers hi)]
    rfl
  atHalt_eq := by
    intro i hi
    rw [after_collecting (h.mono hi)]
    rfl
  stop_eq := fun _ _ => rfl

/-- What a collecting stage has collected: the values that it was offered. -/
theorem sink_after_collect (c : Stage (List UInt8)) (n : Nat) :
    (c.after .collect n).sink = c.sink ++ (c.offersOf .collect n).map (·.1) := by
  have hsame : c.after .collect n =
      (c.after .collect n).collecting (c.sink ++ (c.offersOf .collect n).map (·.1)) :=
    after_collecting (acceptsAll_collect c n)
  rw [hsame]
  rfl

/-! ### Print instructions -/

/-- The stages at which the first `n` requests execute a print instruction. -/
def prints (sink : Sink σ) (c : Stage σ) (n : Nat) : List (Stage σ) :=
  (c.path sink n).filter (·.machine.print?.isSome)

/-- The prints of a stretch grow by those of its last request. -/
theorem prints_succ : c.prints sink (n + 1) =
    c.prints sink n ++ [c.after sink n].filter (·.machine.print?.isSome) := by
  rw [prints, path_succ', List.filter_append]
  rfl

/-- Each print instruction offers one value. -/
theorem length_prints : (c.prints sink n).length = (c.offersOf sink n).length := by
  induction n with
  | zero => rfl
  | succ n ih =>
    rw [prints_succ, offersOf_succ, List.length_append, List.length_append, ih, offers_eq]
    cases hprint : (c.after sink n).machine.print? with
    | none => simp [hprint]
    | some value => simp [hprint]

/-- The prints of a shorter stretch come first. -/
theorem prints_prefix (sink : Sink σ) (c : Stage σ) (h : k ≤ n) : c.prints sink k <+: c.prints sink n := by
  induction n with
  | zero =>
    obtain rfl := Nat.le_zero.mp h
    exact List.prefix_refl _
  | succ n ih =>
    rcases Nat.le_succ_iff.mp h with hk | rfl
    · rw [prints_succ]
      exact (ih hk).trans (List.prefix_append _ _)
    · exact List.prefix_refl _

/-- The number of a print instruction is that of the value that it offers. -/
theorem getElem?_prints (hk : k < n) (hprint : (c.after sink k).machine.print?.isSome = true) :
    (c.prints sink n)[(c.offersOf sink k).length]? = some (c.after sink k) := by
  have hnext : c.prints sink (k + 1) = c.prints sink k ++ [c.after sink k] := by
    rw [prints_succ]
    simp [hprint]
  obtain ⟨later, hlater⟩ := prints_prefix sink c (Nat.succ_le_of_lt hk)
  rw [← hlater, hnext, ← length_prints]
  simp

/-! ### The cut -/

/-- A collecting run goes on behind a print instruction. -/
theorem retires_of_print {d : Stage (List UInt8)} {value : UInt8}
    (h : d.machine.print? = some value) : d.Retires .collect := by
  unfold Machine.print? at h
  split at h
  · next src hm hd =>
    refine ⟨d.machine.pc, 2, ?_⟩
    rw [step, Machine.step_prn_accepted hm hd rfl]
    rfl
  · cases h

/-- A list is only ever added to. -/
theorem sink_collect_prefix {d : Stage (List UInt8)} (h : k ≤ n) :
    (d.after .collect k).sink <+: (d.after .collect n).sink := by
  obtain ⟨m, rfl⟩ := Nat.exists_eq_add_of_le h
  rw [← after_add, sink_after_collect (d.after .collect k) m]
  exact List.prefix_append _ _

variable {result : Except Fault RunOutcome} {before later : List (UInt8 × Bool)} {value : UInt8}

/-- The offers of a run with a refused one among them: the refusal ends the run, behind a stretch of
`k` retired instructions. -/
structure RefusedBehind (sink : Sink σ) (limit : Option Nat) (c : Stage σ) (k n : Nat)
    (result : Except Fault RunOutcome) (before : List (UInt8 × Bool)) (value : UInt8)
    (later : List (UInt8 × Bool)) : Prop where
  requests_eq : n = k + 1
  advances : c.Advances sink k
  within : ∀ l ∈ limit, k < l
  result_eq : result = .error (.outputFailed (c.after sink k).machine.pc)
  machine_eq : (c.after sink (k + 1)).machine =
    { (c.after sink k).machine with runState := .faulted (.outputFailed (c.after sink k).machine.pc) }
  offers_eq : (c.after sink k).offers sink = [(value, false)]
  before_eq : before = c.offersOf sink k
  later_eq : later = []

/-- **A refused value is the last thing that happens in a run.** -/
theorem exists_refusedBehind (hc : c.machine.runState = .running)
    (h : Course sink (fun _ => false) limit c n result)
    (hoffers : c.offersOf sink n = before ++ (value, false) :: later) :
    ∃ k, RefusedBehind sink limit c k n result before value later := by
  have hmem : (value, false) ∈ c.offersOf sink n := by
    rw [hoffers]
    exact List.mem_append_right before List.mem_cons_self
  -- a print only retires if its value is accepted, so the refused one is the last offer
  have hnot : ∀ {m}, c.Advances sink m → (value, false) ∉ c.offersOf sink m := by
    intro m hadv hmem
    cases hadv.acceptsAll _ hmem
  -- of the four endings, only the fault has a refused offer behind the retirements
  cases h with
  | limit k hadv => exact absurd hmem (hnot hadv)
  | stopped k _ _ _ _ hsignal => cases hsignal
  | halted k hadv _ _ hend =>
    rw [offersOf_succ, offers_of_halted (runState_after hc hadv) hend, List.append_nil] at hmem
    exact absurd hmem (hnot hadv)
  | faulted k hadv _ hwithin fault hend =>
    have hk := runState_after hc hadv
    have hmachine := machine_next_of_error hk hend
    rcases offers_of_error hk hend with ⟨hnone, -⟩ | ⟨v, hone, rfl⟩
    · rw [offersOf_succ, hnone, List.append_nil] at hmem
      exact absurd hmem (hnot hadv)
    · -- nothing was refused before, so the two ways to split the offers are one
      rw [offersOf_succ, hone] at hoffers
      obtain ⟨hbefore, hvalue, hlater⟩ :=
        (List.append_cons_inj_of_notMem (hnot hadv) List.not_mem_nil).mp hoffers
      rw [hvalue] at hone
      exact ⟨k, rfl, hadv, hwithin, rfl, by rw [after_succ', hmachine], hone, hbefore.symm,
        hlater.symm⟩

/-- What a run shares with the collecting run if its sink refused none of the values in `offers`. -/
structure Uncut (sink : Sink σ) (limit : Option Nat) (c : Stage σ)
    (offers : List (UInt8 × Bool)) : Prop where
  result_eq : (c.runUnder sink limit).result =
    ((c.collecting []).runUnder .collect limit).result
  machine_eq : (c.runUnder sink limit).machine =
    ((c.collecting []).runUnder .collect limit).machine
  values_eq : offers.map (·.1) = ((c.collecting []).runUnder .collect limit).sink

/-- **A run that nothing was refused to is not cut short.** -/
theorem uncut_of_acceptsAll (hc : c.machine.runState = .running)
    (h : Course sink (fun _ => false) limit c n result) (hall : c.AcceptsAll sink n) :
    Uncut sink limit c (c.offersOf sink n) := by
  have hc' : (c.collecting []).machine.runState = .running := hc
  have hrun := h.runLoop_eq hc
  -- both runs take the same course
  have hcollect := (h.transfer (alike_collecting [] hall)).runLoop_eq hc'
  refine ⟨?_, ?_, ?_⟩
  · rw [runUnder, runUnder, hrun, hcollect]
    rfl
  · rw [runUnder, runUnder, hrun, hcollect, answer, answer, after_collecting hall]
    rfl
  · rw [runUnder, hcollect, answer, after_collecting hall]
    rfl

/-- What a run leaves whose sink refused the `j`-th offered value. The collecting run has `print` as
its `j`-th print instruction, before it executes. -/
structure CutShort (sink : Sink σ) (limit : Option Nat) (c : Stage σ)
    (offers : List (UInt8 × Bool)) (j : Nat) (print : Stage (List UInt8)) : Prop where
  result_eq : (c.runUnder sink limit).result = .error (.outputFailed print.machine.pc)
  pc_eq : (c.runUnder sink limit).machine.pc = print.machine.pc
  registers_eq : (c.runUnder sink limit).machine.registers = print.machine.registers
  values_eq : offers.map (·.1) = ((c.collecting []).runUnder .collect limit).sink.take j
  accepted_eq : accepted offers = ((c.collecting []).runUnder .collect limit).sink.take (j - 1)
  /-- No later call prints, whatever sinks it brings, before one gives the machine a new run
  state. -/
  silent : ∀ {τ : Type} (t : τ) (calls : List (Call τ)), (∀ call ∈ calls, ¬ call.Renews) →
    ((⟨(c.runUnder sink limit).machine, t⟩ : Stage τ).afterCalls calls).sink = t

/-- Then the accepted values are the offered ones. -/
theorem accepted_of_acceptsAll (h : c.AcceptsAll sink n) :
    accepted (c.offersOf sink n) = (c.offersOf sink n).map (·.1) := by
  unfold accepted
  rw [List.filter_eq_self.mpr h]

/-! Behind a stretch of retired instructions the sink is offered a value. Whether it takes it or
not, the collecting run prints it. -/

section Offered

variable {answer : Bool} (hadv : c.Advances sink k)
  (hone : (c.after sink k).offers sink = [(value, answer)])

include hadv

/-- At the refused print, the list has what the sink has accepted. -/
theorem sink_collecting :
    ((c.collecting []).after .collect k).sink = (c.offersOf sink k).map (·.1) := by
  rw [after_collecting hadv.acceptsAll]
  rfl

theorem length_offersOf_collecting :
    ((c.collecting []).offersOf .collect k).length = (c.offersOf sink k).length := by
  have hsink : (c.offersOf sink k).map (·.1) =
      [] ++ ((c.collecting []).offersOf .collect k).map (·.1) := by
    rw [← sink_collecting hadv, sink_after_collect]
    rfl
  have hlength := congrArg List.length hsink
  rw [List.nil_append, List.length_map, List.length_map] at hlength
  exact hlength.symm

include hone

/-- The machine with the list stands in front of the same print. -/
theorem print?_collecting :
    ((c.collecting []).after .collect k).machine.print? = some value := by
  rw [after_collecting hadv.acceptsAll]
  change (c.after sink k).machine.print? = some value
  exact print?_of_offers hone

/-- For the list, the refused print is an instruction like any other. -/
theorem advances_collecting : (c.collecting []).Advances .collect (k + 1) := by
  intro i hi
  rcases Nat.lt_succ_iff_lt_or_eq.mp hi with hi | rfl
  · exact (alike_collecting [] hadv.acceptsAll).advances le_rfl hadv i hi
  · exact retires_of_print (print?_collecting hadv hone)

/-- Behind it, the list has the refused value, too. -/
theorem sink_collecting_succ : ((c.collecting []).after .collect (k + 1)).sink =
    (c.offersOf sink (k + 1)).map (·.1) := by
  rw [after_succ', next, sink_step, heard, print?_collecting hadv hone, sink_collecting hadv,
    offersOf_succ, hone, List.map_append]
  rfl

end Offered

/-- **The cut.** A run with a refused offer is cut short at the print instruction of the collecting
run that has the number of the offer. -/
theorem exists_cutShort (hc : c.machine.runState = .running)
    (h : Course sink (fun _ => false) limit c n result)
    {N : Nat} {R : Except Fault RunOutcome}
    (hcollect : Course .collect (fun _ => false) limit (c.collecting []) N R)
    (hoffers : c.offersOf sink n = before ++ (value, false) :: later) :
    ∃ print, ((c.collecting []).prints .collect N)[before.length]? = some print ∧
      CutShort sink limit c (c.offersOf sink n) (before.length + 1) print := by
  have hc' : (c.collecting []).machine.runState = .running := hc
  have hrun : c.runUnder sink limit = _ := h.runLoop_eq hc
  have hcollectRun : (c.collecting []).runUnder .collect limit = _ := hcollect.runLoop_eq hc'
  obtain ⟨k, hrefused⟩ := exists_refusedBehind hc h hoffers
  obtain ⟨rfl, hadv, hwithin, rfl, hmachine, hone, rfl, rfl⟩ := hrefused
  -- the machine is where the collecting run is when it prints the refused value
  have hprint : ((c.collecting []).after .collect k).machine = (c.after sink k).machine := by
    rw [after_collecting hadv.acceptsAll]
    rfl
  have hleft : (c.runUnder sink limit).machine =
      { (c.after sink k).machine with
        runState := .faulted (.outputFailed (c.after sink k).machine.pc) } := by
    rw [hrun, ← hmachine]
    rfl
  -- and the collecting run goes on from there
  have hN : k + 1 ≤ N := hcollect.le_of_advances (advances_collecting hadv hone) hwithin
    (unstopped_never (k + 1))
  refine ⟨(c.collecting []).after .collect k, ?_, ?_⟩
  · rw [← length_offersOf_collecting hadv]
    exact getElem?_prints hN (by rw [print?_collecting hadv hone]; rfl)
  exact {
    result_eq := by
      rw [hrun, hprint]
      rfl
    pc_eq := by rw [hleft, hprint]
    registers_eq := by rw [hleft, hprint]
    values_eq := by
      have hprefix := sink_collect_prefix hN (d := c.collecting [])
      rw [sink_collecting_succ hadv hone, List.prefix_iff_eq_take, List.length_map] at hprefix
      rw [hcollectRun, answer, hprefix, offersOf_succ, hone, List.length_append]
      rfl
    accepted_eq := by
      have hprefix := sink_collect_prefix (Nat.le_of_succ_le hN) (d := c.collecting [])
      rw [sink_collecting hadv, List.prefix_iff_eq_take, List.length_map] at hprefix
      have hlast : accepted [(value, false)] = [] := rfl
      rw [hcollectRun, answer, offersOf_succ, hone, accepted_append, hlast, List.append_nil,
        accepted_of_acceptsAll hadv.acceptsAll, Nat.add_sub_cancel]
      exact hprefix
    silent := by
      intro τ t calls hcalls
      refine (stopped_afterCalls ?_ hcalls).2
      rw [hleft]
      intro hrunning
      cases hrunning }

/-- **A failing output device only cuts a run short.** A record of the run shows what its sink was
offered. If nothing of it was refused, the run ends as the run that collects everything. Otherwise
the offer that was refused, the `j`-th one, is the last, and the run is cut at the `j`-th print
instruction of the collecting run, which makes `n` requests in all. -/
theorem runUnder_cutShort (sink : Sink σ) (limit : Option Nat) (c : Stage σ)
    (hc : c.machine.runState = .running) :
    ∃ offers n,
      (c.record []).runUnder sink.recording limit =
        (c.runUnder sink limit).mapSink (fun s => (s, offers)) ∧
      (∃ result, (c.collecting []).runUnder .collect limit =
        (c.collecting []).answer .collect n result) ∧
      ((∀ offer ∈ offers, offer.2 = true) → Uncut sink limit c offers) ∧
      ∀ before value later, offers = before ++ (value, false) :: later →
        ∃ print, ((c.collecting []).prints .collect n)[before.length]? = some print ∧
          CutShort sink limit c offers (before.length + 1) print := by
  have hc' : (c.collecting []).machine.runState = .running := hc
  -- the given run and the collecting one have courses of their own
  obtain ⟨n, result, hcourse⟩ := exists_course sink (fun _ => false) limit hc
  obtain ⟨N, R, hcollect⟩ := exists_course .collect (fun _ => false) limit hc'
  refine ⟨c.offersOf sink n, N, ?_, ⟨R, hcollect.runLoop_eq hc'⟩, ?_, ?_⟩
  · have hrun : c.runUnder sink limit = _ := hcourse.runLoop_eq hc
    rw [hrun]
    exact hcourse.runLoop_record hc []
  · exact uncut_of_acceptsAll hc hcourse
  · intro before value later hoffers
    exact exists_cutShort hc hcourse hcollect hoffers

/-- A machine that prints 5 and then its square, to a sink with room for one value. -/
def printsSquare : Stage (List UInt8) :=
  ⟨{ Machine.new with
      memory := .ofProgram [0x82, 0, 5, 0x47, 0, 0xA2, 0, 0, 0x47, 0, 0x01] }, []⟩

/-- The second of two values is refused. -/
theorem runUnder_cutShort_printsSquare :
    printsSquare.machine.runState = .running ∧
      (printsSquare.runUnder (.bounded (some 1)) none).result = .error (.outputFailed 8) ∧
      ∃ print, CutShort (.bounded (some 1)) none printsSquare [(5, true), (25, false)] 2 print := by
  refine ⟨rfl, by decide +kernel, ?_⟩
  obtain ⟨offers, n, hrecord, -, -, hcut⟩ :=
    runUnder_cutShort (.bounded (some 1)) none printsSquare rfl
  -- what the recording sink hears fixes the list of offers that the theorem speaks of
  have hrecorded : ((printsSquare.record []).runUnder (Sink.bounded (some 1)).recording none).sink.2 =
      [(5, true), (25, false)] := by
    decide +kernel
  have hoffers : offers = [(5, true), (25, false)] := by
    rw [← hrecorded, hrecord]
    rfl
  obtain ⟨print, -, hprint⟩ := hcut [(5, true)] 25 [] hoffers
  rw [hoffers] at hprint
  exact ⟨print, hprint⟩

end Stage

end LS8
