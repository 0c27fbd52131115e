import LS8.Text.Numeral

/-!
# Numerals are read back

The core library reads decimal digits back. Hexadecimal numerals are read back here (`hexValue`),
with their digits beyond nine in upper case. Leading zeros add nothing to the value, so padding a
numeral to a width loses nothing (`hexValue_hexadecimal`). A decimal numeral is not padded: it starts
with a zero only if it is the one of zero (`toDigits_eq_zero_or_cons`).

Whatever its base and its width, a numeral is made of digits and of nothing else (`numeralDigits`),
so in a text it ends where the first other character stands.
-/

namespace LS8

/-! ### Decimal numerals -/

theorem isDigit_of_mem_toDigits {n : Nat} {c : Char} (h : c ∈ Nat.toDigits 10 n) :
    c.isDigit = true :=
  Nat.isDigit_of_mem_toDigits (by decide) (by decide) h

/-- A decimal numeral spells its number. -/
theorem ofDigitChars_decimal (n : Nat) : Nat.ofDigitChars 10 (decimal n).toList 0 = n := by
  rw [toList_decimal, Nat.ofDigitChars_ten_toDigits]

/-- A numeral has no leading zero, unless it is the zero. -/
theorem toDigits_eq_zero_or_cons (n : Nat) : Nat.toDigits 10 n = ['0'] ∨
    ∃ c cs, Nat.toDigits 10 n = c :: cs ∧ c ≠ '0' := by
  induction n using Nat.strongRecOn with
  | ind n ih =>
    rw [Nat.toDigits_eq_if (by decide)]
    split
    · next hlt =>
      have hall : ∀ d : Fin 10, Nat.digitChar d = '0' ∨ Nat.digitChar d ≠ '0' := by decide
      rcases hall ⟨n, hlt⟩ with hzero | hdigit
      · exact .inl (congrArg (fun c => [c]) hzero)
      · exact .inr ⟨_, [], rfl, hdigit⟩
    · next hle =>
      -- the digit in front is that of the number without its last digit, which is not zero
      rcases ih (n / 10) (by omega) with hzero | ⟨c, cs, hcons, hc⟩
      · have hvalue : n / 10 = 0 := by
          have hback := Nat.ofDigitChars_toDigits (b := 10) (n := n / 10) (by decide) (by decide)
          rw [hzero] at hback
          exact hback.symm
        omega
      · exact .inr ⟨c, cs ++ [Nat.digitChar (n % 10)], by rw [hcons, List.cons_append], hc⟩

/-! ### Hexadecimal numerals -/

/-- The value of an upper-case hexadecimal digit. -/
def hexDigitValue (c : Char) : Nat :=
  if c.isDigit then c.toNat - '0'.toNat else c.toNat - 'A'.toNat + 10

/-- The number that upper-case hexadecimal digits spell. -/
def hexValue (cs : List Char) : Nat :=
  cs.foldl (fun value c => 16 * value + hexDigitValue c) 0

/-- A digit behind a numeral counts once, and what stands in front of it sixteen times. -/
theorem hexValue_append_singleton (cs : List Char) (c : Char) :
    hexValue (cs ++ [c]) = 16 * hexValue cs + hexDigitValue c := by
  simp [hexValue]

/-- An upper-case digit has the value of the digit. -/
theorem hexDigitValue_toUpper_digitChar {d : Nat} (h : d < 16) :
    hexDigitValue (Nat.digitChar d).toUpper = d := by
  have hall : ∀ d : Fin 16, hexDigitValue (Nat.digitChar d).toUpper = d := by decide
  exact hall ⟨d, h⟩

/-- The digits of a number spell it. -/
theorem hexValue_toDigits (n : Nat) : hexValue ((Nat.toDigits 16 n).map Char.toUpper) = n := by
  -- by induction on the number, whose last digit is its remainder
  induction n using Nat.strongRecOn with
  | ind n ih =>
    rw [Nat.toDigits_eq_if (by decide)]
    split
    · next hlt =>
      rw [List.map_singleton, ← List.nil_append [_], hexValue_append_singleton,
        hexDigitValue_toUpper_digitChar hlt]
      exact Nat.zero_add n
    · next hle =>
      have hdigit : n % 16 < 16 := Nat.mod_lt n (by decide)
      rw [List.map_append, List.map_singleton, hexValue_append_singleton,
        hexDigitValue_toUpper_digitChar hdigit, ih (n / 16) (by omega)]
      exact Nat.div_add_mod n 16

/-- Leading zeros do not count. -/
theorem hexValue_leftpad (width : Nat) (cs : List Char) :
    hexValue (cs.leftpad width '0') = hexValue cs := by
  have hzero : ∀ k, (List.replicate k '0').foldl
      (fun value c => 16 * value + hexDigitValue c) 0 = 0 := by
    intro k
    induction k with
    | zero => rfl
    | succ k ih =>
      rw [List.replicate_succ, List.foldl_cons]
      exact ih
  rw [hexValue, List.leftpad, List.foldl_append, hzero, ← hexValue]

/-- A hexadecimal numeral has its digits in upper case, behind zeros. -/
theorem toList_hexadecimal (width n : Nat) : (hexadecimal width n).toList =
    ((Nat.toDigits 16 n).map Char.toUpper).leftpad width '0' := by
  simp [hexadecimal]

/-- **A hexadecimal numeral spells its number**, whatever width it is padded to. -/
theorem hexValue_hexadecimal (width n : Nat) : hexValue (hexadecimal width n).toList = n := by
  rw [toList_hexadecimal, hexValue_leftpad, hexValue_toDigits]

/-- A byte takes two hexadecimal digits, no more and no less. -/
theorem length_hexadecimal_two {n : Nat} (h : n < 256) : (hexadecimal 2 n).toList.length = 2 := by
  have hdigits : (Nat.toDigits 16 n).length ≤ 2 :=
    (Nat.length_toDigits_le_iff (by decide) (by decide)).mpr h
  rw [toList_hexadecimal, List.length_leftpad, List.length_map]
  exact Nat.max_eq_left hdigits

/-! ### Nothing but digits -/

/-- The characters of which numerals are made. -/
def numeralDigits : List Char :=
  ['0', '1', '2', '3', '4', '5', '6', '7', '8', '9', 'A', 'B', 'C', 'D', 'E', 'F']

theorem exists_digit_of_mem_toDigits {b n : Nat} (hb : 1 < b) :
    ∀ c ∈ Nat.toDigits b n, ∃ d < b, c = Nat.digitChar d := by
  induction n using Nat.strongRecOn with
  | ind n ih =>
    intro c hc
    rw [Nat.toDigits_eq_if hb] at hc
    split at hc
    · next hlt => exact ⟨n, hlt, List.mem_singleton.mp hc⟩
    · next hle =>
      -- the last digit is a remainder, and the others are those of the quotient
      rcases List.mem_append.mp hc with hc | hc
      · exact ih (n / b) (Nat.div_lt_self (by omega) hb) c hc
      · exact ⟨n % b, Nat.mod_lt n (by omega), List.mem_singleton.mp hc⟩

theorem mem_numeralDigits_of_mem_leftpad {width : Nat} {cs : List Char}
    (h : ∀ c ∈ cs, c ∈ numeralDigits) : ∀ c ∈ cs.leftpad width '0', c ∈ numeralDigits := by
  intro c hc
  rw [List.leftpad, List.mem_append] at hc
  rcases hc with hzero | hcs
  · rw [List.eq_of_mem_replicate hzero]
    decide
  · exact h c hcs

theorem mem_numeralDigits_of_mem_decimal {n : Nat} :
    ∀ c ∈ (decimal n).toList, c ∈ numeralDigits := by
  intro c hc
  rw [toList_decimal] at hc
  obtain ⟨d, hd, rfl⟩ := exists_digit_of_mem_toDigits (by decide) c hc
  have hall : ∀ d : Fin 10, Nat.digitChar d ∈ numeralDigits := by decide
  exact hall ⟨d, hd⟩

theorem mem_numeralDigits_of_mem_hexadecimal {width n : Nat} :
    ∀ c ∈ (hexadecimal width n).toList, c ∈ numeralDigits := by
  rw [toList_hexadecimal]
  refine mem_numeralDigits_of_mem_leftpad fun c hc => ?_
  obtain ⟨digit, hdigit, rfl⟩ := List.mem_map.mp hc
  obtain ⟨d, hd, rfl⟩ := exists_digit_of_mem_toDigits (by decide) digit hdigit
  have hall : ∀ d : Fin 16, (Nat.digitChar d).toUpper ∈ numeralDigits := by decide
  exact hall ⟨d, hd⟩

theorem mem_numeralDigits_of_mem_binary {width n : Nat} :
    ∀ c ∈ (binary width n).toList, c ∈ numeralDigits := by
  rw [binary, String.toList_ofList]
  refine mem_numeralDigits_of_mem_leftpad fun c hc => ?_
  obtain ⟨d, hd, rfl⟩ := exists_digit_of_mem_toDigits (by decide) c hc
  have hall : ∀ d : Fin 2, Nat.digitChar d ∈ numeralDigits := by decide
  exact hall ⟨d, hd⟩

end LS8
