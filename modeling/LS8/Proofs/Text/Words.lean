import Mathlib.Data.List.TakeWhile
import LS8.Register
import LS8.Proofs.Text.Numeral

/-!
# Words of a text

A space ends a word. Names and numerals have no space in them, so where one of them is followed by a
space it is the first word of what begins there (`takeWhile_space`), and reading can go on behind the
space (`behindSpace_append`).
-/

namespace LS8

/-- The part of a text behind its first space. -/
def behindSpace (cs : List Char) : List Char :=
  (cs.dropWhile (· ≠ ' ')).drop 1

theorem decide_ne_space {word : List Char} (hword : ' ' ∉ word) :
    ∀ c ∈ word, decide (c ≠ ' ') = true := by
  intro c hc
  exact decide_eq_true fun h => hword (h ▸ hc)

/-- A word goes up to the first space. -/
theorem takeWhile_space {word : List Char} (hword : ' ' ∉ word) (rest : List Char) :
    (word ++ ' ' :: rest).takeWhile (· ≠ ' ') = word := by
  rw [List.takeWhile_append_of_pos (decide_ne_space hword)]
  simp

/-- What follows a word stands behind that space. -/
theorem behindSpace_append {word : List Char} (hword : ' ' ∉ word) (rest : List Char) :
    behindSpace (word ++ ' ' :: rest) = rest := by
  unfold behindSpace
  rw [List.dropWhile_append_of_pos (decide_ne_space hword)]
  simp

theorem toList_spaced (word rest : String) :
    (word ++ " " ++ rest).toList = word.toList ++ ' ' :: rest.toList := by
  simp

/-- What stands behind given words is found by their length. -/
theorem drop_words (words rest : String) :
    (words ++ rest).toList.drop words.length = rest.toList := by
  rw [String.toList_append]
  exact List.drop_left' String.length_toList

/-! ### Words that are a single one -/

/-- Numerals have no spaces in them. -/
theorem space_notMem_of_digits {cs : List Char} (h : ∀ c ∈ cs, c ∈ numeralDigits) : ' ' ∉ cs :=
  fun hspace => absurd (h ' ' hspace) (by decide)

theorem space_notMem_decimal (n : Nat) : ' ' ∉ (decimal n).toList :=
  space_notMem_of_digits mem_numeralDigits_of_mem_decimal

theorem space_notMem_hexadecimal (width n : Nat) : ' ' ∉ (hexadecimal width n).toList :=
  space_notMem_of_digits mem_numeralDigits_of_mem_hexadecimal

theorem space_notMem_binary (width n : Nat) : ' ' ∉ (binary width n).toList :=
  space_notMem_of_digits mem_numeralDigits_of_mem_binary

theorem toList_name (r : Register) : r.name.toList = 'R' :: (decimal r.val).toList := by
  simp [Register.name]

theorem space_notMem_name (r : Register) : ' ' ∉ r.name.toList := by
  rw [toList_name, List.mem_cons, not_or]
  exact ⟨by decide, space_notMem_decimal r.val⟩

end LS8
