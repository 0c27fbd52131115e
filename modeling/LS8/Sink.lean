import LS8.Text.Numeral

/-!
# Output sinks

A sink takes the values that a program prints. It may keep any state, and it may refuse a value; a
refusal may change its state too. The machine only ever sees the answer to one `emit` after another.

`Sink.collect` keeps every value, and `Sink.bounded` keeps values until it is full. The other sinks
write each value as a line of text. A `Device` takes text request by request and may take only a part
of what a request offers, so a line is written in as many requests as it needs, and what was taken of
a line stays written if a later request fails. `Sink.decimalLines` writes to a `Writer`, a device
that may run out of room in the middle of a line.
-/

namespace LS8

/-- A destination for printed values, with states of type `σ`. -/
structure Sink (σ : Type) where
  /-- Offers a value: whether it is accepted, and the state afterwards. -/
  emit : σ → UInt8 → Bool × σ

namespace Sink

/-- The sink that keeps every value, in order. -/
def collect : Sink (List UInt8) where
  emit taken value := (true, taken ++ [value])

/-- The sink that keeps values as long as it holds fewer than `room` of them, and refuses the
others. Without a `room` it keeps every value. -/
def bounded (room : Option Nat) : Sink (List UInt8) where
  emit taken value :=
    if room.all (taken.length < ·) then (true, taken ++ [value]) else (false, taken)

end Sink

/-- A destination for text that is written request by request, with states of type `δ`. -/
structure Device (δ : Type) where
  /-- Offers characters: how many of them are taken, counted from the first one, or nothing if the
  request fails; and the state afterwards. -/
  write : δ → List Char → Option Nat × δ

namespace Device

variable {δ : Type}

/-- Makes requests until all characters are taken. A request that fails ends this, and so does one
that takes nothing. The flag says whether all characters were taken. -/
def writeAll (device : Device δ) (s : δ) : List Char → Bool × δ
  | [] => (true, s)
  | c :: cs =>
    match device.write s (c :: cs) with
    -- at least one character was taken, so fewer are left
    | (some (taken + 1), s') => device.writeAll s' ((c :: cs).drop (taken + 1))
    | (_, s') => (false, s')
termination_by cs => cs.length
decreasing_by
  rw [List.drop_succ_cons, List.length_drop, List.length_cons]
  omega

/-- Writes the pieces of a text in their order, up to the first one that is not taken completely. -/
def writePieces (device : Device δ) : δ → List (List Char) → Bool × δ
  | s, [] => (true, s)
  | s, piece :: pieces =>
    match device.writeAll s piece with
    | (true, s') => device.writePieces s' pieces
    | (false, s') => (false, s')

end Device

/-- A destination for text with room for a limited number of characters, or for any number of them
if `room` is absent. -/
structure Writer where
  /-- The characters that still fit. -/
  room : Option Nat
  text : List Char := []
  deriving DecidableEq

namespace Writer

/-- Writes characters one after another until they are all taken or no room is left. The flag says
whether they were all taken. -/
def write (writer : Writer) (cs : List Char) : Bool × Writer :=
  match writer.room with
  | none => (true, { writer with text := writer.text ++ cs })
  | some room =>
    -- what fits is taken even where the whole text does not fit
    (cs.length ≤ room, { room := some (room - cs.length), text := writer.text ++ cs.take room })

/-- A writer as a device: a request takes the characters that fit, and fails if there is no room at
all. -/
def device : Device Writer where
  write writer cs :=
    match writer.room with
    | none => (some cs.length, { writer with text := writer.text ++ cs })
    | some room =>
      if 0 < room then
        (some (min cs.length room),
          { room := some (room - cs.length), text := writer.text ++ cs.take room })
      else (none, writer)

end Writer

/-- The line of text for a printed value: its decimal numeral and a line feed. -/
def decimalLine (value : UInt8) : List Char :=
  Nat.toDigits 10 value.toNat ++ ['\n']

namespace Sink

/-- The sink that writes each value as a decimal line to a device, the numeral first and then the line
feed. It accepts a value if the whole line was written; what was taken of a line that is too long
stays written. -/
def linesTo {δ : Type} (device : Device δ) : Sink δ where
  emit s value := device.writePieces s [Nat.toDigits 10 value.toNat, ['\n']]

/-- The sink that writes decimal lines to a writer. -/
def decimalLines : Sink Writer := linesTo Writer.device

end Sink

end LS8
