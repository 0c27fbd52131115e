/-!
# Numerals

The number texts of the machine's diagnostics: decimal numerals without leading zeros, upper-case
hexadecimal padded to a width, and binary padded to a width. Digits come from `Nat.toDigits`, so the
laws of the core library about digit lists apply to every text here. Decimal digits are also read
back (`decimal?_toDigits`).
-/

namespace LS8

/-- The decimal numeral of `n`, without leading zeros. -/
def decimal (n : Nat) : String :=
  String.ofList (Nat.toDigits 10 n)

/-- The number that decimal digits spell. Leading zeros are allowed, a sign is not. -/
def decimal? (cs : List Char) : Option Nat :=
  if !cs.isEmpty && cs.all Char.isDigit then some (Nat.ofDigitChars 10 cs 0) else none

/-- The upper-case hexadecimal numeral of `n`, padded with zeros to at least `width` digits. -/
def hexadecimal (width n : Nat) : String :=
  String.ofList (((Nat.toDigits 16 n).map Char.toUpper).leftpad width '0')

/-- The binary numeral of `n`, padded with zeros to at least `width` digits. -/
def binary (width n : Nat) : String :=
  String.ofList ((Nat.toDigits 2 n).leftpad width '0')

/-- An address or a byte as diagnostics show it: `0x` and at least two hexadecimal digits. -/
def hexLiteral (n : Nat) : String :=
  "0x" ++ hexadecimal 2 n

/-- A byte with its bits spelled out: `0b` and eight binary digits. -/
def bitsLiteral (byte : UInt8) : String :=
  "0b" ++ binary 8 byte.toNat

@[simp] theorem toList_decimal (n : Nat) : (decimal n).toList = Nat.toDigits 10 n := by
  simp [decimal]

/-- A decimal numeral spells its number. -/
theorem decimal?_toDigits (n : Nat) : decimal? (Nat.toDigits 10 n) = some n := by
  have hne : Nat.toDigits 10 n ≠ [] := List.ne_nil_of_length_pos Nat.length_toDigits_pos
  have hdigits : (Nat.toDigits 10 n).all Char.isDigit = true :=
    List.all_eq_true.mpr fun c hc => Nat.isDigit_of_mem_toDigits (by decide) (by decide) hc
  simp [decimal?, hne, hdigits]

end LS8
