import LS8.Json.Escape

/-!
# Escaped strings are read back

`escapeChar` writes a character in one of three forms: as itself, as a backslash and one mark, or as
a unit of four hexadecimal digits. `EscapeForm` says what each form promises, and `escapeForm` that
there is no fourth. Reading goes form by form (`unescape_escape`), and so does checking that a
written text is well formed (`wellFormedBody_escape`).
-/

namespace LS8

namespace Json

/-- The characters that may stand for themselves inside a quoted text. -/
structure Plain (c : Char) : Prop where
  not_quote : c ≠ '"'
  not_backslash : c ≠ '\\'
  visible : ¬ c.toNat < 0x20

/-- The written forms of a character, with what makes them readable. -/
inductive EscapeForm (c : Char) : List Char → Prop
  | plain (plain : Plain c) : EscapeForm c [c]
  | short (mark : Char) (reads : shortEscape? mark = some c) : EscapeForm c ['\\', mark]
  | unit (high low : Char) (control : c.toNat < 0x20)
      (reads : hexUnit? '0' '0' high low = some c.toNat) (high_plain : Plain high)
      (low_plain : Plain low) : EscapeForm c ['\\', 'u', '0', '0', high, low]

variable {c : Char} {cs : List Char}

theorem escape_cons (c : Char) (cs : List Char) :
    escape (c :: cs) = escapeChar c ++ escape cs := rfl

/-- The four digits of a control character spell its number. -/
theorem hexUnit?_of_control {n : Nat} (h : n < 0x20) :
    hexUnit? '0' '0' (hexDigit (n / 16)) (hexDigit (n % 16)) = some n := by
  have hall : ∀ n : Fin 0x20,
      hexUnit? '0' '0' (hexDigit (n / 16)) (hexDigit (n % 16)) = some n.val := by
    decide
  exact hall ⟨n, h⟩

/-- Hexadecimal digits stand for themselves. -/
theorem plain_hexDigit {d : Nat} (h : d < 16) : Plain (hexDigit d) := by
  have hall : ∀ d : Fin 16,
      hexDigit d ≠ '"' ∧ hexDigit d ≠ '\\' ∧ ¬ (hexDigit d).toNat < 0x20 := by
    decide
  obtain ⟨hquote, hbackslash, hvisible⟩ := hall ⟨d, h⟩
  exact ⟨hquote, hbackslash, hvisible⟩

/-- **There are three written forms.** -/
theorem escapeForm (c : Char) : EscapeForm c (escapeChar c) := by
  unfold escapeChar
  split
  · next h => exact .short '"' (by rw [h]; rfl)
  split
  · next h => exact .short '\\' (by rw [h]; rfl)
  split
  · next h => exact .short 'b' (by rw [h]; rfl)
  split
  · next h => exact .short 't' (by rw [h]; rfl)
  split
  · next h => exact .short 'n' (by rw [h]; rfl)
  split
  · next h => exact .short 'f' (by rw [h]; rfl)
  split
  · next h => exact .short 'r' (by rw [h]; rfl)
  -- the other control characters are spelled by their numbers
  split
  · next h =>
    exact .unit _ _ h (hexUnit?_of_control h) (plain_hexDigit (by omega))
      (plain_hexDigit (by omega))
  · next hquote hbackslash _ _ _ _ _ hvisible => exact .plain ⟨hquote, hbackslash, hvisible⟩

/-- The marks of short escapes are visible characters, and none of them starts a unit. -/
theorem mark_of_shortEscape? {mark : Char} (h : shortEscape? mark = some c) :
    mark ≠ 'u' ∧ ¬ mark.toNat < 0x20 := by
  unfold shortEscape? at h
  split at h
  all_goals first
    | exact ⟨by decide, by decide⟩
    | cases h

/-! ### Reading -/

variable {body : List Char}

/-- Each written form is read as its character, whatever follows it. -/
theorem unescape_append_of_form (h : EscapeForm c body) (rest : List Char) :
    unescape (body ++ rest) = (unescape rest).map (c :: ·) := by
  cases h with
  | plain hc =>
    rw [List.singleton_append, unescape]
    · cases unescape rest with
      | none => rfl
      | some cs => rfl
    all_goals simp [hc.not_backslash]
  | short mark hmark =>
    obtain ⟨hunit, -⟩ := mark_of_shortEscape? hmark
    rw [List.cons_append, List.singleton_append, unescape]
    · rw [hmark]
      cases unescape rest with
      | none => rfl
      | some cs => rfl
    · simp [hunit]
  | unit high low hcontrol hunit _ _ =>
    -- only control characters are written as units, and these are far below the surrogates
    have hhigh : isHighSurrogate c.toNat = false := by
      simp [isHighSurrogate]
      omega
    have hlow : isLowSurrogate c.toNat = false := by
      simp [isLowSurrogate]
      omega
    simp only [List.cons_append, List.nil_append]
    rw [unescape, hunit]
    simp only [bind, Option.bind, hhigh, hlow, Bool.false_eq_true, if_false, Char.ofNat_toNat]
    cases unescape rest with
    | none => rfl
    | some cs => rfl

/-- **An escaped string is read back.** -/
theorem unescape_escape (cs : List Char) : unescape (escape cs) = some cs := by
  induction cs with
  | nil => rfl
  | cons c cs ih =>
    rw [escape_cons, unescape_append_of_form (escapeForm c), ih]
    rfl

/-- Each written form is well formed, whatever follows it. -/
theorem wellFormedBody_append_of_form (h : EscapeForm c body) (rest : List Char) :
    wellFormedBody (body ++ rest) = wellFormedBody rest := by
  -- one case for each form that a character can take
  cases h with
  | plain hc =>
    rw [List.singleton_append, wellFormedBody]
    all_goals simp [hc.not_backslash]
  | short mark hmark =>
    obtain ⟨hunit, -⟩ := mark_of_shortEscape? hmark
    rw [List.cons_append, List.singleton_append, wellFormedBody]
    · simp [hmark]
    · simp [hunit]
  | unit high low hcontrol hunit _ _ =>
    simp only [List.cons_append, List.nil_append]
    rw [wellFormedBody, hunit]
    rfl

/-- **What is escaped is well formed.** -/
theorem wellFormedBody_escape (cs : List Char) : wellFormedBody (escape cs) = true := by
  induction cs with
  | nil => rfl
  | cons c cs ih =>
    rw [escape_cons, wellFormedBody_append_of_form (escapeForm c), ih]

end Json

end LS8
