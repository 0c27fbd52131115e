import LS8.Proofs.Text.Numeral
import LS8.Sink

/-!
# Lines of text for a device with limited room

A device with limited room (`Device.Limited`) takes as many characters in all as there is room for,
in portions of its own choice, and fails once nothing fits any more. What is written to it goes
through three loops: the requests for one piece of a line, the two pieces of a line, and the lines of
several values. The first two end at a request that fails. The last one goes on, because a sink may
also be used after it has refused a value.

All three leave the device in the same way (`Device.Filled`): of what was to be written the first part
was taken, as long as there was room. This is kept when more is written behind it
(`Device.Filled.append`), and where no room is left it makes no difference whether more was tried at
all (`Device.Filled.append_of_le`). So the text on the device does not show where the pieces of a line
were, and the answers to the values depend on the lengths of their lines alone
(`Sink.emitAll_linesTo`).

A writer is such a device if its room is limited (`Writer.limited`). With or without a limit, it makes
no difference to a writer whether a line comes in pieces or as a whole (`Sink.emit_decimalLines`).
-/

namespace LS8

variable {σ δ : Type} {device : Device δ} {room : δ → Option Nat} {text : δ → List Char}
variable {s s' s'' : δ} {r taken : Nat} {cs a b : List Char}

namespace Device

/-! ### Requests -/

theorem writeAll_nil : device.writeAll s [] = (true, s) := by
  rw [writeAll]

/-- Where a part of the text is taken, the rest is written from there. -/
theorem writeAll_of_taken (hcs : cs ≠ []) (h : device.write s cs = (some taken, s'))
    (hpos : 0 < taken) : device.writeAll s cs = device.writeAll s' (cs.drop taken) := by
  cases cs with
  | nil => exact absurd rfl hcs
  | cons c cs =>
    obtain ⟨k, rfl⟩ := Nat.exists_eq_add_of_lt hpos
    rw [Nat.zero_add] at h ⊢
    rw [writeAll, h]

/-- Where none of it is taken, the write fails. -/
theorem writeAll_of_refused {answer : Option Nat} (hcs : cs ≠ [])
    (h : device.write s cs = (answer, s')) (hnone : answer = none ∨ answer = some 0) :
    device.writeAll s cs = (false, s') := by
  cases cs with
  | nil => exact absurd rfl hcs
  | cons c cs => rcases hnone with rfl | rfl <;> rw [writeAll, h]

/-- **A device with limited room.** Its state shows how many characters it still takes, if this is
limited, and which ones it has taken. While there is room a request takes one character at least,
but it need not take all that fit. Without room a request fails, or it takes nothing. -/
structure Limited (device : Device δ) (room : δ → Option Nat) (text : δ → List Char) : Prop where
  takes : ∀ s r cs, room s = some r → 0 < r → cs ≠ [] →
    ∃ taken s', device.write s cs = (some taken, s') ∧ 0 < taken ∧ taken ≤ cs.length ∧ taken ≤ r ∧
      room s' = some (r - taken) ∧ text s' = text s ++ cs.take taken
  fails : ∀ s cs, room s = some 0 → cs ≠ [] →
    ∃ answer s', device.write s cs = (answer, s') ∧ (answer = none ∨ answer = some 0) ∧
      room s' = some 0 ∧ text s' = text s

/-! ### What is taken -/

/-- A text was written to a device with room for `r` characters, as far as there was room. -/
structure Filled (room : δ → Option Nat) (text : δ → List Char) (s : δ) (r : Nat) (cs : List Char)
    (s' : δ) : Prop where
  room_eq : room s' = some (r - cs.length)
  text_eq : text s' = text s ++ cs.take r

theorem Filled.nil (hr : room s = some r) : Filled room text s r [] s where
  room_eq := hr
  text_eq := by rw [List.take_nil, List.append_nil]

/-- A device that takes one text after the other is filled by both. -/
theorem Filled.append (ha : Filled room text s r a s')
    (hb : Filled room text s' (r - a.length) b s'') : Filled room text s r (a ++ b) s'' where
  room_eq := by rw [hb.room_eq, List.length_append, Nat.sub_sub]
  text_eq := by rw [hb.text_eq, ha.text_eq, List.append_assoc, List.take_append]

/-- Where no room is left, it makes no difference what else should have been written. -/
theorem Filled.append_of_le (ha : Filled room text s r a s') (hr : r ≤ a.length) (b : List Char) :
    Filled room text s r (a ++ b) s' where
  room_eq := by
    rw [ha.room_eq, List.length_append]
    congr 1
    omega
  text_eq := by rw [ha.text_eq, List.take_append_of_le_length hr]

/-- **One piece of text.** It is taken in as many portions as the device likes, and there was room
for it or there was not. -/
theorem Limited.writeAll (h : device.Limited room text) (hr : room s = some r) (cs : List Char) :
    ∃ s', device.writeAll s cs = (decide (cs.length ≤ r), s') ∧ Filled room text s r cs s' := by
  -- every portion is at least one character, so the rest is shorter
  induction hn : cs.length using Nat.strongRecOn generalizing s r cs with
  | ind n ih =>
    by_cases hcs : cs = []
    · subst hcs
      refine ⟨s, ?_, .nil hr⟩
      rw [writeAll_nil, ← hn, List.length_nil, decide_eq_true (Nat.zero_le r)]
    have hlength : 0 < cs.length := List.length_pos_iff.mpr hcs
    rcases Nat.eq_zero_or_pos r with rfl | hpos
    · obtain ⟨answer, s', hwrite, hnone, hroom, htext⟩ := h.fails s cs hr hcs
      refine ⟨s', ?_, ?_, ?_⟩
      · rw [writeAll_of_refused hcs hwrite hnone, decide_eq_false (by omega)]
      · rw [hroom, Nat.zero_sub]
      · rw [htext, List.take_zero, List.append_nil]
    · obtain ⟨taken, s₁, hwrite, htaken, hle, hler, hroom, htext⟩ := h.takes s r cs hr hpos hcs
      have hrest : (cs.drop taken).length = n - taken := by rw [List.length_drop, hn]
      obtain ⟨s₂, hwriteAll, hfilled⟩ := ih (n - taken) (by omega) hroom (cs.drop taken) hrest
      have hfirst : (cs.take taken).length = taken := List.length_take_of_le hle
      have hportion : Filled room text s r (cs.take taken) s₁ :=
        ⟨by rw [hroom, hfirst], by rw [htext, List.take_take, Nat.min_eq_right hler]⟩
      refine ⟨s₂, ?_, ?_⟩
      · rw [writeAll_of_taken hcs hwrite htaken, hwriteAll]
        congr 1
        rw [decide_eq_decide]
        omega
      · have hbehind : Filled room text s₁ (r - (cs.take taken).length) (cs.drop taken) s₂ := by
          rwa [hfirst]
        have happend := hportion.append hbehind
        rwa [List.take_append_drop] at happend

/-- **One piece behind another.** A piece that was not taken completely has left no room, so what
comes behind it would not have been taken either. -/
theorem Limited.writePieces (h : device.Limited room text) (hr : room s = some r)
    (pieces : List (List Char)) :
    ∃ s', device.writePieces s pieces = (decide (pieces.flatten.length ≤ r), s') ∧
      Filled room text s r pieces.flatten s' := by
  induction pieces generalizing s r with
  | nil => exact ⟨s, by simp [Device.writePieces], .nil hr⟩
  | cons piece pieces ih =>
    obtain ⟨s₁, hwrite, hpiece⟩ := h.writeAll hr piece
    rw [List.flatten_cons, List.length_append]
    by_cases hfits : piece.length ≤ r
    -- the piece was taken, and the others find the room that it has left
    · obtain ⟨s₂, hrest, hfilled⟩ := ih hpiece.room_eq
      refine ⟨s₂, ?_, hpiece.append hfilled⟩
      rw [Device.writePieces, hwrite, decide_eq_true hfits]
      simp only
      rw [hrest]
      congr 1
      rw [decide_eq_decide]
      omega
    · refine ⟨s₁, ?_, hpiece.append_of_le (Nat.le_of_not_le hfits) pieces.flatten⟩
      rw [Device.writePieces, hwrite, decide_eq_false hfits, decide_eq_false (by omega)]

end Device

/-! ### Lines -/

/-- A line shows a value: the digits of its numeral, without leading zeros, and a line feed. -/
def IsDecimalLine (value : UInt8) (line : List Char) : Prop :=
  ∃ digits, line = digits ++ ['\n'] ∧ digits ≠ [] ∧ (∀ c ∈ digits, c.isDigit = true) ∧
    Nat.ofDigitChars 10 digits 0 = value.toNat ∧ (digits = ['0'] ∨ digits.head? ≠ some '0')

/-- A decimal line is one: digits that have the value, and a line feed. -/
theorem isDecimalLine_decimalLine (value : UInt8) : IsDecimalLine value (decimalLine value) := by
  refine ⟨Nat.toDigits 10 value.toNat, rfl, ?_, ?_, Nat.ofDigitChars_ten_toDigits, ?_⟩
  · exact List.ne_nil_of_length_pos Nat.length_toDigits_pos
  · exact fun c hc => isDigit_of_mem_toDigits hc
  · rcases toDigits_eq_zero_or_cons value.toNat with hzero | ⟨c, cs, hcons, hc⟩
    · exact .inl hzero
    · refine .inr fun h => hc ?_
      rw [hcons] at h
      exact Option.some.inj h

/-- Each character of a line is one byte of its text. -/
theorem utf8Size_of_mem_decimalLine {value : UInt8} {c : Char} (h : c ∈ decimalLine value) :
    c.utf8Size = 1 := by
  rcases List.mem_append.mp h with hdigit | hfeed
  · have hnine : c.toNat ≤ '9'.toNat :=
      (Char.isDigit_iff_toNat.mp (isDigit_of_mem_toDigits hdigit)).2
    exact Char.utf8Size_eq_one_iff.mpr (UInt32.le_iff_toNat_le.mpr (Nat.le_trans hnine (by decide)))
  · obtain rfl := List.mem_singleton.mp hfeed
    rfl

/-- The number and the line feed are written in two pieces. -/
theorem flatten_linePieces (value : UInt8) :
    [Nat.toDigits 10 value.toNat, ['\n']].flatten = decimalLine value := by
  rw [List.flatten_cons, List.flatten_singleton, decimalLine]

theorem length_decimalLine_pos (value : UInt8) : 0 < (decimalLine value).length := by
  rw [decimalLine, List.length_append, List.length_singleton]
  exact Nat.succ_pos _

theorem length_lines_pos {values : List UInt8} (h : values ≠ []) :
    0 < (values.flatMap decimalLine).length := by
  obtain ⟨value, values, rfl⟩ := List.exists_cons_of_ne_nil h
  rw [List.flatMap_cons, List.length_append]
  exact Nat.add_pos_left (length_decimalLine_pos value) _

namespace Sink

/-- Offers values one after another, whatever the answers are. -/
def emitAll (sink : Sink σ) : σ → List UInt8 → List Bool × σ
  | s, [] => ([], s)
  | s, value :: values =>
    let offered := sink.emit s value
    let rest := sink.emitAll offered.2 values
    (offered.1 :: rest.1, rest.2)

/-- Values that are sent in two parts are sent one after the other. -/
theorem emitAll_append (sink : Sink σ) (s : σ) (a b : List UInt8) :
    sink.emitAll s (a ++ b) =
      ((sink.emitAll s a).1 ++ (sink.emitAll (sink.emitAll s a).2 b).1,
        (sink.emitAll (sink.emitAll s a).2 b).2) := by
  induction a generalizing s with
  | nil => rfl
  | cons value a ih =>
    simp only [List.cons_append, emitAll, ih]

theorem length_emitAll (sink : Sink σ) (s : σ) (values : List UInt8) :
    (sink.emitAll s values).1.length = values.length := by
  induction values generalizing s with
  | nil => rfl
  | cons value values ih => rw [emitAll, List.length_cons, List.length_cons, ih]

/-- **A value is accepted exactly when its line has room**, and the device is filled by the line, as
far as it goes. -/
theorem emit_linesTo (h : device.Limited room text) (hr : room s = some r) (value : UInt8) :
    ∃ s', (linesTo device).emit s value = (decide ((decimalLine value).length ≤ r), s') ∧
      Device.Filled room text s r (decimalLine value) s' := by
  rw [← flatten_linePieces]
  exact h.writePieces hr _

/-- **Lines one behind another.** The device takes the first part of their text, and a value is
accepted if there is room for the lines up to its own. -/
theorem emitAll_linesTo (h : device.Limited room text) (hr : room s = some r)
    (values : List UInt8) :
    Device.Filled room text s r (values.flatMap decimalLine)
      ((linesTo device).emitAll s values).2 ∧
    ∀ i < values.length, ((linesTo device).emitAll s values).1[i]? =
      some (decide (((values.take (i + 1)).flatMap decimalLine).length ≤ r)) := by
  induction values generalizing s r with
  | nil => exact ⟨.nil hr, fun i hi => absurd hi (Nat.not_lt_zero i)⟩
  | cons value values ih =>
    obtain ⟨s₁, hemit, hline⟩ := emit_linesTo h hr value
    obtain ⟨hfilled, hanswers⟩ := ih hline.room_eq
    have hall : (linesTo device).emitAll s (value :: values) =
        (decide ((decimalLine value).length ≤ r) :: ((linesTo device).emitAll s₁ values).1,
          ((linesTo device).emitAll s₁ values).2) := by
      rw [emitAll, hemit]
    rw [hall]
    refine ⟨hline.append hfilled, fun i hi => ?_⟩
    cases i with
    | zero => simp
    | succ i =>
      have hi : i < values.length := Nat.lt_of_succ_lt_succ hi
      have hne : values.take (i + 1) ≠ [] := by
        rw [← List.length_pos_iff, List.length_take]
        omega
      -- a line that does not fit behind others is at least one character too long
      have hpos := length_lines_pos hne
      rw [List.getElem?_cons_succ, hanswers i hi, List.take_succ_cons, List.flatMap_cons,
        List.length_append]
      congr 1
      rw [decide_eq_decide]
      omega

/-- The last answer says whether there was room for all lines. -/
theorem getLast?_emitAll_linesTo (h : device.Limited room text) (hr : room s = some r)
    {values : List UInt8} (hvalues : values ≠ []) :
    ((linesTo device).emitAll s values).1.getLast? =
      some (decide ((values.flatMap decimalLine).length ≤ r)) := by
  have hlength : 0 < values.length := List.length_pos_iff.mpr hvalues
  have hlast := (emitAll_linesTo h hr values).2 (values.length - 1) (by omega)
  rw [Nat.sub_add_cancel hlength, List.take_length] at hlast
  rw [List.getLast?_eq_getElem?, length_emitAll, hlast]

/-- So the lines of accepted values fit together. -/
theorem length_le_of_accepted (h : device.Limited room text) (hr : room s = some r)
    {values : List UInt8}
    (haccepted : ∀ answer ∈ ((linesTo device).emitAll s values).1, answer = true) :
    (values.flatMap decimalLine).length ≤ r := by
  by_cases hvalues : values = []
  · rw [hvalues]
    exact Nat.zero_le r
  · have hlast := getLast?_emitAll_linesTo h hr hvalues
    exact of_decide_eq_true (haccepted _ (List.mem_of_getLast? hlast))

/-- And where the last value was refused, they do not. -/
theorem lt_length_of_refused (h : device.Limited room text) (hr : room s = some r)
    {values : List UInt8} (hrefused : ((linesTo device).emitAll s values).1.getLast? = some false) :
    r < (values.flatMap decimalLine).length := by
  have hvalues : values ≠ [] := by
    rintro rfl
    cases hrefused
  rw [getLast?_emitAll_linesTo h hr hvalues] at hrefused
  exact Nat.lt_of_not_le (of_decide_eq_false (Option.some.inj hrefused))

end Sink

/-! ### Writers -/

namespace Writer

/-- A writer without a bound takes any text. -/
theorem write_unlimited (written cs : List Char) :
    write ⟨none, written⟩ cs = (true, ⟨none, written ++ cs⟩) :=
  rfl

/-- A writer with a bound takes what fits in it. -/
theorem write_limited (r : Nat) (written cs : List Char) :
    write ⟨some r, written⟩ cs =
      (decide (cs.length ≤ r), ⟨some (r - cs.length), written ++ cs.take r⟩) :=
  rfl

/-- A writer takes in each request what fits. -/
theorem limited : Writer.device.Limited Writer.room Writer.text where
  takes := by
    intro writer r cs hr hpos hcs
    have hlength : 0 < cs.length := List.length_pos_iff.mpr hcs
    have hroom : r - min cs.length r = r - cs.length := by omega
    -- taking more than there is room for is taking what there is room for
    have htake : cs.take (min cs.length r) = cs.take r := by
      rw [Nat.min_comm, ← List.take_eq_take_min]
    refine ⟨min cs.length r, ⟨some (r - cs.length), writer.text ++ cs.take r⟩, ?_, by omega,
      Nat.min_le_left _ _, Nat.min_le_right _ _, ?_, ?_⟩
    · simp only [Writer.device, hr, if_pos hpos]
    · rw [hroom]
    · rw [htake]
  fails := by
    intro writer cs hr _
    refine ⟨none, writer, ?_, .inl rfl, hr, rfl⟩
    simp only [Writer.device, hr, if_neg (Nat.lt_irrefl 0)]

/-- **Requests add up to the whole text.** What is written request by request is the same as if it
were written at once. -/
theorem writeAll_device (writer : Writer) (cs : List Char) :
    Writer.device.writeAll writer cs = writer.write cs := by
  obtain ⟨_ | r, written⟩ := writer
  -- without a limit the first request takes everything
  · by_cases hcs : cs = []
    · rw [hcs, Device.writeAll_nil, write_unlimited, List.append_nil]
    · have hwrite : Writer.device.write ⟨none, written⟩ cs =
          (some cs.length, ⟨none, written ++ cs⟩) := rfl
      rw [Device.writeAll_of_taken hcs hwrite (List.length_pos_iff.mpr hcs), List.drop_length,
        Device.writeAll_nil, write_unlimited]
  · obtain ⟨writer', hwrite, hroom, htext⟩ := limited.writeAll (s := ⟨some r, written⟩) rfl cs
    rw [hwrite, write_limited, ← hroom, ← htext]

/-- To write in pieces is to write the pieces together. -/
theorem writePieces_device (writer : Writer) (pieces : List (List Char)) :
    Writer.device.writePieces writer pieces = writer.write pieces.flatten := by
  -- without a bound every piece is taken; with one the device fills up as one text would fill it
  obtain ⟨_ | r, written⟩ := writer
  · induction pieces generalizing written with
    | nil => rw [Device.writePieces, List.flatten_nil, write_unlimited, List.append_nil]
    | cons piece pieces ih =>
      rw [Device.writePieces, writeAll_device, write_unlimited, List.flatten_cons]
      simp only
      rw [ih, write_unlimited, write_unlimited, List.append_assoc]
  · obtain ⟨writer', hwrite, hroom, htext⟩ :=
      limited.writePieces (s := ⟨some r, written⟩) rfl pieces
    rw [hwrite, write_limited, ← hroom, ← htext]

end Writer

/-- A line that is written piece by piece to a writer is written as a whole. -/
theorem Sink.emit_decimalLines (writer : Writer) (value : UInt8) :
    Sink.decimalLines.emit writer value = writer.write (decimalLine value) := by
  rw [← flatten_linePieces]
  exact writer.writePieces_device _

end LS8
