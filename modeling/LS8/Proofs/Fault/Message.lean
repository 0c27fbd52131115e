import LS8.Fault
import LS8.Proofs.Program.Literal
import LS8.Proofs.Text.Words

/-!
# Messages are read back

A message opens with fixed words, and these tell what the fault is about. There is one opening for
each kind of fault, and one for each space in the case of addresses (`Fault.Opening`). None of them
is the start of another one, so a text opens in at most one of these ways
(`Fault.Opening.exclude_all`), and what stands behind the opening is read in the way that belongs to
it (`Fault.read_behindOpening`).

Behind its opening a message names the details of the fault. Numbers and registers are words of
their own there, so they end at the next space, and each of them is read back whole: padding adds
nothing to the value of a number. A text that comes from outside may contain anything, the message
of another fault included. It stands at the end of its message, where nothing has to be found behind
it but the one character that closes the quotation.
-/

namespace LS8

/-- Two texts of which neither is the start of the other one. -/
def Exclude (a b : String) : Prop :=
  ¬ a.toList <+: b.toList ∧ ¬ b.toList <+: a.toList

instance (a b : String) : Decidable (Exclude a b) :=
  inferInstanceAs (Decidable (¬ a.toList <+: b.toList ∧ ¬ b.toList <+: a.toList))

/-- Nothing opens with two texts that exclude each other. -/
theorem Exclude.isPrefixOf?_append {a b : String} (h : Exclude a b) (rest : List Char) :
    a.toList.isPrefixOf? (b.toList ++ rest) = none := by
  rw [Option.eq_none_iff_forall_ne_some]
  intro later hlater
  have ha : a.toList <+: b.toList ++ rest :=
    ⟨later, List.append_eq_of_isPrefixOf?_eq_some hlater⟩
  -- of two starts of a text one is the start of the other
  rcases List.prefix_or_prefix_of_prefix ha (List.prefix_append b.toList rest) with hab | hba
  · exact h.1 hab
  · exact h.2 hba

/-- The register with a given name. -/
def registerNamed (name : List Char) : Register :=
  ⟨Nat.ofDigitChars 10 (name.drop 1) 0 % 8, Nat.mod_lt _ (by decide)⟩

/-- A register is read back from its name. -/
theorem registerNamed_name (r : Register) : registerNamed r.name.toList = r := by
  have hindex : Nat.ofDigitChars 10 (r.name.toList.drop 1) 0 = r.val := by
    rw [toList_name, toList_decimal]
    exact Nat.ofDigitChars_ten_toDigits
  apply Fin.ext
  show Nat.ofDigitChars 10 (r.name.toList.drop 1) 0 % 8 = r.val
  rw [hindex, Nat.mod_eq_of_lt r.isLt]

namespace Fault

/-! ### Openings -/

/-- The ways in which messages open. -/
inductive Opening where
  | cell
  | register
  | operand
  | operation
  | division
  | instruction
  | program
  | output
  | snapshot
  deriving DecidableEq

namespace Opening

/-- All openings. -/
def all : List Opening :=
  [cell, register, operand, operation, division, instruction, program, output, snapshot]

/-- The words of an opening. -/
def words : Opening → String
  | cell => "memory address 0x"
  | register => "register address 0x"
  | operand => "operand value "
  | operation => "unsupported ALU operation `"
  | division => "division by zero: "
  | instruction => "illegal instruction 0b"
  | program => "program of "
  | output => "output sink failed at pc 0x"
  | snapshot => "snapshot layout mismatch: "

/-- The fault that a message with the opening is about, read off the text behind the opening. -/
def read (rest : List Char) : Opening → Fault
  | cell => .addressOutOfRange .memory (hexValue (rest.takeWhile (· ≠ ' ')))
  | register => .addressOutOfRange .registers (hexValue (rest.takeWhile (· ≠ ' ')))
  | operand => .invalidOperand (Nat.ofDigitChars 10 (rest.takeWhile (· ≠ ' ')) 0)
  | operation => .unsupportedOperation (String.ofList rest.dropLast)
  | division =>
    .divisionByZero (registerNamed (rest.takeWhile (· ≠ ' ')))
      (registerNamed ((behindSpace rest).drop "/ ".length))
  | instruction =>
    .illegalInstruction (UInt8.ofNat (binaryValue (rest.takeWhile (· ≠ ' '))))
      (hexValue ((behindSpace rest).drop "at pc 0x".length))
  | program =>
    .programTooLarge (Nat.ofDigitChars 10 (rest.takeWhile (· ≠ ' ')) 0)
      (Nat.ofDigitChars 10
        (((behindSpace rest).drop "bytes exceeds memory capacity of ".length).takeWhile (· ≠ ' '))
        0)
  | output => .outputFailed (hexValue rest)
  | snapshot => .snapshotLayout (String.ofList rest)

/-- What a text says if it opens in the given way. -/
def read? (text : List Char) (opening : Opening) : Option Fault :=
  (opening.words.toList.isPrefixOf? text).map opening.read

/-- No message opens with the words of another kind of fault. -/
theorem exclude_all : all.Pairwise fun o o' => Exclude o.words o'.words := by
  decide

theorem mem_all (opening : Opening) : opening ∈ all := by
  cases opening <;> decide

end Opening

/-- The fault that a message is about. -/
def ofMessage? (text : String) : Option Fault :=
  Opening.all.findSome? (Opening.read? text.toList)

/-- **A message is read in the way of its opening**, because no other opening gets in the way. -/
theorem findSome?_read?_append {openings : List Opening}
    (hexclude : openings.Pairwise fun o o' => Exclude o.words o'.words) {opening : Opening}
    (hmem : opening ∈ openings) (rest : List Char) :
    openings.findSome? (Opening.read? (opening.words.toList ++ rest)) =
      some (opening.read rest) := by
  induction openings with
  | nil => cases hmem
  | cons first openings ih =>
    rw [List.pairwise_cons] at hexclude
    rw [List.findSome?_cons]
    rcases List.mem_cons.mp hmem with rfl | hlater
    · have hself : opening.words.toList.isPrefixOf? (opening.words.toList ++ rest) = some rest :=
        List.isPrefixOf?_eq_some_iff_append_eq.mpr rfl
      simp only [Opening.read?, hself, Option.map_some]
    -- the opening in front is another one, so it does not match and the search goes on
    · have hother := (hexclude.1 _ hlater).isPrefixOf?_append rest
      simp only [Opening.read?, hother, Option.map_none]
      exact ih hexclude.2 hlater

/-! ### Messages -/

/-- The way in which the message of a fault opens. -/
def opening : Fault → Opening
  | addressOutOfRange .memory _ => .cell
  | addressOutOfRange .registers _ => .register
  | invalidOperand _ => .operand
  | unsupportedOperation _ => .operation
  | divisionByZero .. => .division
  | illegalInstruction .. => .instruction
  | programTooLarge .. => .program
  | outputFailed _ => .output
  | snapshotLayout _ => .snapshot

/-- What the message of a fault says behind its opening. -/
def behindOpening : Fault → String
  | addressOutOfRange _ address => hexadecimal 2 address ++ " " ++ "out of range"
  | invalidOperand value => decimal value ++ " " ++ "does not fit in a byte"
  | unsupportedOperation operation => operation ++ "`"
  | divisionByZero dest src => dest.name ++ " " ++ ("/ " ++ src.name)
  | illegalInstruction opcode pc =>
    binary 8 opcode.toNat ++ " " ++ ("at pc 0x" ++ hexadecimal 2 pc)
  | programTooLarge length capacity =>
    decimal length ++ " " ++
      ("bytes exceeds memory capacity of " ++ (decimal capacity ++ " " ++ "bytes"))
  | outputFailed pc => hexadecimal 2 pc
  | snapshotLayout reason => reason

/-- A message is the words of its kind, and behind them what the fault carries. -/
theorem message_eq (fault : Fault) :
    fault.message = fault.opening.words ++ fault.behindOpening := by
  -- the same text, cut behind the opening and at the spaces that end a numeral or a name
  cases fault with
  | addressOutOfRange space address =>
    have hend : " out of range" = " " ++ "out of range" := by decide
    cases space with
    | memory =>
      have hwords : Opening.cell.words = "memory" ++ " address " ++ "0x" := by decide
      show "memory" ++ " address " ++ ("0x" ++ hexadecimal 2 address) ++ " out of range" =
        Opening.cell.words ++ (hexadecimal 2 address ++ " " ++ "out of range")
      rw [hwords, hend]
      simp only [String.append_assoc]
    | registers =>
      have hwords : Opening.register.words = "register" ++ " address " ++ "0x" := by decide
      show "register" ++ " address " ++ ("0x" ++ hexadecimal 2 address) ++ " out of range" =
        Opening.register.words ++ (hexadecimal 2 address ++ " " ++ "out of range")
      rw [hwords, hend]
      simp only [String.append_assoc]
  | invalidOperand value =>
    have hend : " does not fit in a byte" = " " ++ "does not fit in a byte" := by decide
    show "operand value " ++ decimal value ++ " does not fit in a byte" =
      "operand value " ++ (decimal value ++ " " ++ "does not fit in a byte")
    rw [hend]
    simp only [String.append_assoc]
  | unsupportedOperation operation => exact String.append_assoc
  | divisionByZero dest src =>
    have hslash : " / " = " " ++ "/ " := by decide
    show "division by zero: " ++ dest.name ++ " / " ++ src.name =
      "division by zero: " ++ (dest.name ++ " " ++ ("/ " ++ src.name))
    rw [hslash]
    simp only [String.append_assoc]
  | illegalInstruction opcode pc =>
    have hwords : Opening.instruction.words = "illegal instruction " ++ "0b" := by decide
    have hspace : " at pc " = " " ++ "at pc " := by decide
    have hplace : "at pc 0x" = "at pc " ++ "0x" := by decide
    show "illegal instruction " ++ ("0b" ++ binary 8 opcode.toNat) ++ " at pc " ++
        ("0x" ++ hexadecimal 2 pc) =
      Opening.instruction.words ++
        (binary 8 opcode.toNat ++ " " ++ ("at pc 0x" ++ hexadecimal 2 pc))
    rw [hwords, hspace, hplace]
    simp only [String.append_assoc]
  | programTooLarge length capacity =>
    have hmiddle : " bytes exceeds memory capacity of " =
        " " ++ "bytes exceeds memory capacity of " := by decide
    have hend : " bytes" = " " ++ "bytes" := by decide
    show "program of " ++ decimal length ++ " bytes exceeds memory capacity of " ++
        decimal capacity ++ " bytes" =
      "program of " ++ (decimal length ++ " " ++
        ("bytes exceeds memory capacity of " ++ (decimal capacity ++ " " ++ "bytes")))
    rw [hmiddle, hend]
    simp only [String.append_assoc]
  | outputFailed pc =>
    have hwords : Opening.output.words = "output sink failed at pc " ++ "0x" := by decide
    show "output sink failed at pc " ++ ("0x" ++ hexadecimal 2 pc) =
      Opening.output.words ++ hexadecimal 2 pc
    rw [hwords, String.append_assoc]
  | snapshotLayout reason => rfl

/-- **The details are read back** in the way of the opening. -/
theorem read_behindOpening (fault : Fault) : fault.opening.read fault.behindOpening.toList = fault := by
  cases fault with
  | addressOutOfRange space address =>
    have hword := space_notMem_hexadecimal 2 address
    cases space with
    | memory =>
      rw [opening, Opening.read, behindOpening, toList_spaced, takeWhile_space hword,
        hexValue_hexadecimal]
    | registers =>
      rw [opening, Opening.read, behindOpening, toList_spaced, takeWhile_space hword,
        hexValue_hexadecimal]
  | invalidOperand value =>
    have hword := space_notMem_decimal value
    rw [opening, Opening.read, behindOpening, toList_spaced, takeWhile_space hword,
      ofDigitChars_decimal]
  | unsupportedOperation operation =>
    -- the last character closes the quotation, whatever is quoted
    have hquoted : (operation ++ "`").toList = operation.toList ++ ['`'] := by simp
    rw [opening, Opening.read, behindOpening, hquoted, List.dropLast_concat, String.ofList_toList]
  | divisionByZero dest src =>
    have hword := space_notMem_name dest
    rw [opening, Opening.read, behindOpening, toList_spaced, takeWhile_space hword,
      behindSpace_append hword, drop_words, registerNamed_name, registerNamed_name]
  | illegalInstruction opcode pc =>
    have hword := space_notMem_binary 8 opcode.toNat
    rw [opening, Opening.read, behindOpening, toList_spaced, takeWhile_space hword,
      behindSpace_append hword, drop_words, binaryValue_binary, UInt8.ofNat_toNat,
      hexValue_hexadecimal]
  | programTooLarge length capacity =>
    have hlength := space_notMem_decimal length
    have hcapacity := space_notMem_decimal capacity
    rw [opening, Opening.read, behindOpening, toList_spaced, takeWhile_space hlength,
      behindSpace_append hlength, drop_words, toList_spaced, takeWhile_space hcapacity,
      ofDigitChars_decimal, ofDigitChars_decimal]
  | outputFailed pc => rw [opening, Opening.read, behindOpening, hexValue_hexadecimal]
  | snapshotLayout reason => rw [opening, Opening.read, behindOpening, String.ofList_toList]

/-- **A fault is read back from its message**, whatever it quotes. -/
theorem ofMessage?_message (fault : Fault) : ofMessage? fault.message = some fault := by
  rw [ofMessage?, message_eq, String.toList_append,
    findSome?_read?_append Opening.exclude_all fault.opening.mem_all, read_behindOpening]

/-- The message of another fault may be quoted. -/
example : ofMessage? "snapshot layout mismatch: division by zero: R1 / R2" =
    some (.snapshotLayout "division by zero: R1 / R2") := by
  decide +kernel

/-- **Different faults have different messages.** -/
theorem message_injective : Function.Injective message := by
  intro fault fault' h
  have hread : some fault = some fault' := by
    rw [← ofMessage?_message fault, ← ofMessage?_message fault', h]
  exact Option.some.inj hread

end Fault

end LS8
