import Mathlib.Data.List.Induction
import Mathlib.Data.Nat.Digits.Lemmas
import LS8.Program.Literal
import LS8.Proofs.Text.Numeral

/-!
# What a literal spells

A literal is a nonempty text of binary digits (`IsBinary`), and `binaryValue` is the number that it
spells: the first digit is the most significant one, and leading zeros add nothing. The number has
no bound. `literalByte` accepts the literals with a value below 256, and refuses each other text for
one of three reasons: it is no literal, its value is no byte, or its value is not even an operand
value. The four lemmas of this module are these cases, and `malformed_iff` says that the last three
are together what `SpellsByte` excludes. So each answer is given for the texts that it describes and
for no others (`literalByte_classifies`).

What is read is kept in the range of operand values after every digit, while `binaryValue` is in no
range. The two are compared in `operandValue?_eq`, by induction on the digits from the last one.
-/

namespace LS8

/-- A nonempty text of binary digits. -/
def IsBinary (token : List Char) : Prop :=
  token ≠ [] ∧ ∀ c ∈ token, c = '0' ∨ c = '1'

/-- The value of a binary digit. -/
def bit (c : Char) : Nat :=
  if c = '1' then 1 else 0

/-- The number that binary digits spell, the most significant digit first. -/
def binaryValue (token : List Char) : Nat :=
  Nat.ofDigits 2 (token.map bit).reverse

/-- A text that spells a byte. -/
def SpellsByte (token : List Char) : Prop :=
  IsBinary token ∧ binaryValue token ≤ 255

/-- What is wrong with a text that spells no byte. -/
inductive Malformed (token : List Char) : LoadErrorKind → Prop
  | notBinary (h : ¬ IsBinary token) : Malformed token (.invalidLiteral (String.ofList token))
  | tooWide (h : IsBinary token) (low : 256 ≤ binaryValue token)
      (high : binaryValue token < 0x100000000) :
      Malformed token (.machine (.invalidOperand (binaryValue token)))
  | overflow (h : IsBinary token) (high : 0x100000000 ≤ binaryValue token) :
      Malformed token (.literalOverflow (String.ofList token))

variable {token : List Char}

/-- A digit behind a token doubles the value and adds its own. -/
theorem binaryValue_append_singleton (token : List Char) (c : Char) :
    binaryValue (token ++ [c]) = 2 * binaryValue token + bit c := by
  unfold binaryValue
  rw [List.map_append, List.reverse_append, List.map_singleton, List.reverse_singleton,
    List.singleton_append, Nat.ofDigits_cons]
  omega

/-- The distance of a binary digit to `0` is its value. -/
theorem sub_eq_bit {c : Char} (h : c = '0' ∨ c = '1') : c.toNat - '0'.toNat = bit c := by
  rcases h with rfl | rfl
  · rfl
  · rfl

/-! ### Reading in the range of operand values -/

/-- An operand value is given a digit as long as the number with the digit is an operand value,
too: of the two checks only the second one decides. -/
theorem appendDigit?_eq {value : Nat} {c : Char} (h : c = '0' ∨ c = '1') :
    appendDigit? value c = checkedOperand? (2 * value + bit c) := by
  unfold appendDigit?
  rw [sub_eq_bit h]
  by_cases hdouble : 2 * value < operandBound
  · rw [checkedOperand?, if_pos hdouble]
    rfl
  · -- a number that is too large when it is doubled is too large with the digit
    have hdigit : ¬ 2 * value + bit c < operandBound := by omega
    rw [checkedOperand?, if_neg hdouble, checkedOperand?, if_neg hdigit]
    rfl

/-- **Reading gives up exactly if the number is no operand value.** What has been read is the value
of the digits in front, however many of them there are; a value that is left behind the range is
never back in it, because more digits never make a number smaller. -/
theorem operandValue?_eq (h : ∀ c ∈ token, c = '0' ∨ c = '1') :
    operandValue? token = checkedOperand? (binaryValue token) := by
  induction token using List.reverseRecOn with
  | nil => rfl
  | append_singleton token c ih =>
    have hinit : ∀ c' ∈ token, c' = '0' ∨ c' = '1' :=
      fun c' hc' => h c' (List.mem_append_left [c] hc')
    have hlast : c = '0' ∨ c = '1' := h c (List.mem_append_right token List.mem_cons_self)
    have hread : operandValue? (token ++ [c]) =
        (checkedOperand? (binaryValue token)).bind (appendDigit? · c) := by
      rw [← ih hinit]
      simp [operandValue?, List.foldlM_append]
    rw [hread, binaryValue_append_singleton]
    by_cases hfits : binaryValue token < operandBound
    · rw [checkedOperand?, if_pos hfits]
      exact appendDigit?_eq hlast
    -- the digits in front have left the range, and one more digit does not lead back
    · have hgone : ¬ 2 * binaryValue token + bit c < operandBound := by omega
      rw [checkedOperand?, if_neg hfits, checkedOperand?, if_neg hgone]
      rfl

/-- Reading digits one after another without a bound gives their value. -/
theorem ofDigitChars_eq_binaryValue (h : ∀ c ∈ token, c = '0' ∨ c = '1') :
    Nat.ofDigitChars 2 token 0 = binaryValue token := by
  induction token using List.reverseRecOn with
  | nil => rfl
  | append_singleton token c ih =>
    have hinit : ∀ c' ∈ token, c' = '0' ∨ c' = '1' :=
      fun c' hc' => h c' (List.mem_append_left [c] hc')
    have hlast : c = '0' ∨ c = '1' := h c (List.mem_append_right token List.mem_cons_self)
    rw [Nat.ofDigitChars_append, ih hinit, Nat.ofDigitChars_cons, Nat.ofDigitChars_nil,
      sub_eq_bit hlast, binaryValue_append_singleton]

/-! ### Numerals -/

theorem mem_toDigits_two {n : Nat} : ∀ c ∈ Nat.toDigits 2 n, c = '0' ∨ c = '1' := by
  intro c hc
  obtain ⟨d, hd, rfl⟩ := exists_digit_of_mem_toDigits (by decide) c hc
  have hall : ∀ d : Fin 2, Nat.digitChar d = '0' ∨ Nat.digitChar d = '1' := by decide
  exact hall ⟨d, hd⟩

/-- The binary digits of a number have it as their value. -/
theorem binaryValue_toDigits (n : Nat) : binaryValue (Nat.toDigits 2 n) = n := by
  rw [← ofDigitChars_eq_binaryValue mem_toDigits_two]
  exact Nat.ofDigitChars_toDigits (by decide) (by decide)

/-- Zeros in front of a numeral add nothing to it. -/
theorem binaryValue_zeros_append (zeros : Nat) (token : List Char) :
    binaryValue (List.replicate zeros '0' ++ token) = binaryValue token := by
  have hzero : bit '0' = 0 := by decide
  unfold binaryValue
  rw [List.map_append, List.map_replicate, List.reverse_append, List.reverse_replicate, hzero,
    Nat.ofDigits_append_replicate_zero]

/-- **A binary numeral spells its number**, whatever width it is padded to. -/
theorem binaryValue_binary (width n : Nat) : binaryValue (binary width n).toList = n := by
  rw [binary, String.toList_ofList, List.leftpad, binaryValue_zeros_append, binaryValue_toDigits]

/-! ### The four answers -/

theorem all_isBinaryDigit_iff :
    token.all isBinaryDigit = true ↔ ∀ c ∈ token, c = '0' ∨ c = '1' := by
  simp [isBinaryDigit]

/-- A token with any other character is no literal, and is quoted in the error. -/
theorem literalByte_of_not_isBinary (h : ¬ IsBinary token) :
    literalByte token = .error (.invalidLiteral (String.ofList token)) := by
  have hcheck : (token.isEmpty || !token.all isBinaryDigit) = true := by
    by_contra hcheck
    rw [Bool.not_eq_true, Bool.or_eq_false_iff, Bool.not_eq_false'] at hcheck
    exact h ⟨List.isEmpty_eq_false_iff.mp hcheck.1, all_isBinaryDigit_iff.mp hcheck.2⟩
  unfold literalByte
  rw [if_pos hcheck]

/-- A literal is judged by its value. -/
theorem literalByte_of_isBinary (h : IsBinary token) :
    literalByte token = if binaryValue token < operandBound then
        (byteOperand (binaryValue token)).mapError .machine
      else .error (.literalOverflow (String.ofList token)) := by
  have hcheck : (token.isEmpty || !token.all isBinaryDigit) = false := by
    rw [Bool.or_eq_false_iff, Bool.not_eq_false']
    exact ⟨List.isEmpty_eq_false_iff.mpr h.1, all_isBinaryDigit_iff.mpr h.2⟩
  unfold literalByte
  rw [hcheck, operandValue?_eq h.2, checkedOperand?]
  -- the accumulator of 32 bits overflows exactly where the value does not fit in it
  by_cases hfits : binaryValue token < operandBound
  · simp [if_pos hfits]
  · simp [if_neg hfits]

/-- A token of binary digits denotes its value, where a byte holds it. -/
theorem literalByte_of_spellsByte (h : SpellsByte token) :
    literalByte token = .ok (UInt8.ofNat (binaryValue token)) := by
  have hbyte : binaryValue token < 256 := Nat.lt_succ_of_le h.2
  have hoperand : binaryValue token < operandBound := Nat.lt_trans hbyte (by decide)
  rw [literalByte_of_isBinary h.1, if_pos hoperand, byteOperand_of_lt hbyte]
  rfl

/-- Any other token is refused in the way it is malformed. -/
theorem literalByte_of_malformed {kind : LoadErrorKind} (h : Malformed token kind) :
    literalByte token = .error kind := by
  cases h with
  | notBinary h => exact literalByte_of_not_isBinary h
  | tooWide h low high =>
    have hoperand : binaryValue token < operandBound := high
    rw [literalByte_of_isBinary h, if_pos hoperand, byteOperand_of_le low]
    rfl
  | overflow h high =>
    have hoperand : ¬ binaryValue token < operandBound := Nat.not_lt_of_le high
    rw [literalByte_of_isBinary h, if_neg hoperand]

/-- **A text spells a byte unless one of the three things is wrong with it.** -/
theorem malformed_iff : (∃ kind, Malformed token kind) ↔ ¬ SpellsByte token := by
  constructor
  · rintro ⟨kind, h⟩ ⟨hbinary, hbyte⟩
    cases h with
    | notBinary h => exact h hbinary
    | tooWide _ low _ => omega
    | overflow _ high => omega
  · intro h
    -- the token has another character, or its value is too large, for a byte or even for the
    -- accumulator
    by_cases hbinary : IsBinary token
    · have hlow : 256 ≤ binaryValue token := by
        by_contra hlt
        exact h ⟨hbinary, by omega⟩
      by_cases hhigh : binaryValue token < 0x100000000
      · exact ⟨_, .tooWide hbinary hlow hhigh⟩
      · exact ⟨_, .overflow hbinary (Nat.le_of_not_lt hhigh)⟩
    · exact ⟨_, .notBinary hbinary⟩

/-! ### Each answer for its own texts -/

/-- **A token denotes a byte exactly when it is a binary spelling of it.** -/
theorem literalByte_eq_ok_iff {byte : UInt8} :
    literalByte token = .ok byte ↔ IsBinary token ∧ byte.toNat = binaryValue token := by
  constructor
  · intro h
    -- an accepted token is not malformed, so it spells a byte
    by_cases hspells : SpellsByte token
    · rw [literalByte_of_spellsByte hspells] at h
      obtain rfl := Except.ok.inj h
      exact ⟨hspells.1, UInt8.toNat_ofNat_of_lt' (Nat.lt_succ_of_le hspells.2)⟩
    · obtain ⟨kind, hwrong⟩ := malformed_iff.mpr hspells
      rw [literalByte_of_malformed hwrong] at h
      cases h
  · rintro ⟨hbinary, hvalue⟩
    have hbyte : binaryValue token < 256 := hvalue ▸ byte.toNat_lt
    rw [literalByte_of_spellsByte ⟨hbinary, Nat.le_of_lt_succ hbyte⟩, ← hvalue, UInt8.ofNat_toNat]

/-- **It is refused exactly when it is malformed, and in this way.** -/
theorem literalByte_eq_error_iff {kind : LoadErrorKind} :
    literalByte token = .error kind ↔ Malformed token kind := by
  refine ⟨fun h => ?_, literalByte_of_malformed⟩
  by_cases hspells : SpellsByte token
  · rw [literalByte_of_spellsByte hspells] at h
    cases h
  · -- something is wrong with the text, and it is what the answer says
    obtain ⟨kind', hwrong⟩ := malformed_iff.mpr hspells
    rw [literalByte_of_malformed hwrong] at h
    obtain rfl := Except.error.inj h
    exact hwrong

/-- The answers to a token, each with the tokens that it is given to. -/
structure Classified (token : List Char) (answer : Except LoadErrorKind UInt8) : Prop where
  invalid_iff : answer = .error (.invalidLiteral (String.ofList token)) ↔
    token = [] ∨ ∃ c ∈ token, c ≠ '0' ∧ c ≠ '1'
  accepted_iff : (∃ byte, answer = .ok byte) ↔ IsBinary token ∧ binaryValue token ≤ 255
  byte_iff : ∀ byte, answer = .ok byte ↔ IsBinary token ∧ byte.toNat = binaryValue token
  tooWide_iff : answer = .error (.machine (.invalidOperand (binaryValue token))) ↔
    IsBinary token ∧ 256 ≤ binaryValue token ∧ binaryValue token < 0x100000000
  overflow_iff : answer = .error (.literalOverflow (String.ofList token)) ↔
    IsBinary token ∧ 0x100000000 ≤ binaryValue token
  /-- There is no other answer. -/
  refused_cases : ∀ kind, answer = .error kind →
    kind = .invalidLiteral (String.ofList token) ∨
      kind = .machine (.invalidOperand (binaryValue token)) ∨
      kind = .literalOverflow (String.ofList token)

/-- What is no literal is empty or has a character in it that is no digit. -/
theorem not_isBinary_iff : ¬ IsBinary token ↔ token = [] ∨ ∃ c ∈ token, c ≠ '0' ∧ c ≠ '1' := by
  simp [IsBinary, Classical.or_iff_not_imp_left]

/-- **Every token is classified exactly**, whatever its length and however many zeros it starts
with. -/
theorem literalByte_classifies (token : List Char) : Classified token (literalByte token) where
  invalid_iff := by
    rw [literalByte_eq_error_iff, ← not_isBinary_iff]
    constructor
    · rintro ⟨h⟩
      exact h
    · exact .notBinary
  accepted_iff := by
    constructor
    · rintro ⟨byte, h⟩
      obtain ⟨hbinary, hvalue⟩ := literalByte_eq_ok_iff.mp h
      exact ⟨hbinary, hvalue ▸ Nat.le_of_lt_succ byte.toNat_lt⟩
    · intro hspells
      exact ⟨_, literalByte_of_spellsByte hspells⟩
  byte_iff := fun _ => literalByte_eq_ok_iff
  tooWide_iff := by
    rw [literalByte_eq_error_iff]
    constructor
    · intro h
      cases h with
      | tooWide hbinary low high => exact ⟨hbinary, low, high⟩
    · rintro ⟨hbinary, low, high⟩
      exact .tooWide hbinary low high
  overflow_iff := by
    rw [literalByte_eq_error_iff]
    constructor
    · intro h
      cases h with
      | overflow hbinary high => exact ⟨hbinary, high⟩
    · rintro ⟨hbinary, high⟩
      exact .overflow hbinary high
  refused_cases := by
    intro kind h
    -- there are three ways to be malformed, one for each kind of error
    cases literalByte_eq_error_iff.mp h with
    | notBinary _ => exact .inl rfl
    | tooWide _ _ _ => exact .inr (.inl rfl)
    | overflow _ _ => exact .inr (.inr rfl)

-- 33 digits are not too many for a byte, and 33 others are too many even for an operand value
example : literalByte (List.replicate 32 '0' ++ ['1']) = .ok 1 ∧
    literalByte ('1' :: List.replicate 32 '0') =
      .error (.literalOverflow "100000000000000000000000000000000") := by
  decide +kernel

end LS8
