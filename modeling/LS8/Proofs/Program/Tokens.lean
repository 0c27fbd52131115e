import Mathlib.Data.List.DropRight
import LS8.Program.Source

/-!
# The tokens of a text

`sourceTokens` looks at the pieces of a text between its line feeds. What a reader calls a line is
not quite that: a carriage return in front of the line feed belongs to the end of the line, and there
is no line behind the last line feed if nothing follows it. `textLines` are the lines in this sense,
and `textTokens` are what is left of them without comments and blanks, with the numbers of their
lines.

The two lists of tokens are equal (`sourceTokens_eq_textTokens`), because the carriage return is a
blank at the end of its line or a part of the comment there, and the piece behind the last line feed
has no token if it is empty. So every token stands in a line that the text really has
(`line_mem_textTokens`).
-/

namespace LS8

/-- A line without the carriage return at its end, if there is one. -/
def withoutReturn (line : List Char) : List Char :=
  if line.getLast? = some '\r' then line.dropLast else line

/-- The lines of a text, given the pieces between its line feeds. -/
def linesOfPieces : List (List Char) → List (List Char)
  | [] => []
  | [last] => if last = [] then [] else [last]
  | piece :: pieces => withoutReturn piece :: linesOfPieces pieces

/-- The lines of a text. Each line feed ends one, and so does the end of the text where something
stands in front of it. -/
def textLines (text : List Char) : List (List Char) :=
  linesOfPieces (text.splitOn '\n')

/-- What a line holds: the part in front of its first `#`, without the blanks at both ends. -/
def lineToken (line : List Char) : List Char :=
  ((line.takeWhile (· ≠ '#')).dropWhile isBlank).rdropWhile isBlank

/-- The token of a line with its number, unless the line holds nothing. -/
def numberedToken (numbered : List Char × Nat) : Option SourceToken :=
  if lineToken numbered.1 = [] then none
  else some { line := numbered.2, text := lineToken numbered.1 }

/-- The tokens of a text in order. Lines are counted from one. -/
def textTokens (text : List Char) : List SourceToken :=
  ((textLines text).zipIdx 1).filterMap numberedToken

variable {line text : List Char}

/-! ### Pieces and blanks -/

/-- Cutting at a mark is splitting on it. -/
theorem cutAt_eq_splitOn (mark : Char) (cs : List Char) : cutAt mark cs = cs.splitOn mark := by
  induction cs with
  | nil => rfl
  | cons c cs ih =>
    rw [List.splitOn_cons_eq_if_modifyHead, ← ih]
    by_cases h : c = mark
    · simp [h]
    · rw [cutAt_cons_of_ne h, if_neg (by simpa using h)]
      -- there is always a first piece to put the character in front of
      cases hpieces : cutAt mark cs with
      | nil => exact absurd hpieces (cutAt_ne_nil mark cs)
      | cons piece pieces => rfl

theorem trimEnd_append_singleton (cs : List Char) (c : Char) :
    trimEnd (cs ++ [c]) = if isBlank c then trimEnd cs else cs ++ [c] := by
  induction cs with
  | nil => simp [trimEnd]
  | cons d cs ih =>
    rw [List.cons_append, trimEnd, ih]
    by_cases h : isBlank c = true
    · rw [if_pos h, if_pos h, trimEnd]
    · rw [if_neg h, if_neg h]
      -- a blank in front is only trimmed if nothing follows it
      cases cs with
      | nil => rfl
      | cons e cs => rfl

/-- Trimming the end drops blanks from the right. -/
theorem trimEnd_eq_rdropWhile (cs : List Char) : trimEnd cs = cs.rdropWhile isBlank := by
  induction cs using List.reverseRecOn with
  | nil => rfl
  | append_singleton cs c ih => rw [trimEnd_append_singleton, List.rdropWhile_concat, ih]

/-- The code of a line is what stands in front of its first `#`, without the blanks around it. -/
theorem code_eq_lineToken (line : List Char) : SourceToken.code line = lineToken line := by
  unfold SourceToken.code lineToken trim
  rw [trimEnd_eq_rdropWhile]
  congr 3
  funext c
  exact (decide_not (p := c = '#')).symm

/-- A blank at the end of a text goes with the other blanks there. -/
theorem strip_append_blank {c : Char} (hc : isBlank c = true) (cs : List Char) :
    ((cs ++ [c]).dropWhile isBlank).rdropWhile isBlank =
      (cs.dropWhile isBlank).rdropWhile isBlank := by
  rw [List.dropWhile_append]
  cases h : cs.dropWhile isBlank with
  | nil => simp [hc]
  | cons d ds =>
    rw [List.isEmpty_cons, if_neg Bool.false_ne_true, List.rdropWhile_concat_pos _ _ _ hc]

/-- A blank at the end of a line is not part of its token: it is cut off with the comment, or it is
the last blank behind the token. -/
theorem lineToken_append_blank {c : Char} (hc : isBlank c = true) (line : List Char) :
    lineToken (line ++ [c]) = lineToken line := by
  unfold lineToken
  rw [List.takeWhile_append]
  -- without a `#` the blank is at the end of the code; with one it belongs to the comment
  split
  · next hall =>
    have hself : line.takeWhile (· ≠ '#') = line := (List.takeWhile_prefix _).eq_of_length hall
    have hmark : c ≠ '#' := by
      rintro rfl
      exact absurd hc (by decide)
    have hblank : [c].takeWhile (· ≠ '#') = [c] := by simp [hmark]
    rw [hself, hblank, strip_append_blank hc]
  · rfl

/-- **A carriage return at the end of a line is not part of its token.** -/
theorem lineToken_withoutReturn (line : List Char) :
    lineToken (withoutReturn line) = lineToken line := by
  unfold withoutReturn
  split
  · next hreturn =>
    have hline : line = line.dropLast ++ ['\r'] := (List.dropLast_append_getLast? '\r' hreturn).symm
    conv_rhs => rw [hline]
    exact (lineToken_append_blank (by decide) line.dropLast).symm
  · rfl

/-! ### The tokens are those of the lines -/

/-- Lines without tokens are left out, and the others keep their numbers. -/
theorem ofLines_eq (number : Nat) (pieces : List (List Char)) :
    SourceToken.ofLines number pieces =
      ((linesOfPieces pieces).zipIdx number).filterMap numberedToken := by
  induction pieces generalizing number with
  | nil => rfl
  | cons piece pieces ih =>
    cases pieces with
    | nil =>
      -- the last piece is no line if it is empty, but then it has no token either
      by_cases hpiece : piece = []
      · subst hpiece
        rfl
      · simp only [SourceToken.ofLines, code_eq_lineToken, linesOfPieces, if_neg hpiece]
        by_cases h : lineToken piece = []
        · simp [numberedToken, h]
        · simp [numberedToken, h]
    | cons next pieces =>
      have hlines : linesOfPieces (piece :: next :: pieces) =
          withoutReturn piece :: linesOfPieces (next :: pieces) := rfl
      rw [hlines, List.zipIdx_cons, List.filterMap_cons, ← ih, SourceToken.ofLines,
        code_eq_lineToken]
      unfold numberedToken
      rw [lineToken_withoutReturn]
      by_cases h : lineToken piece = []
      · simp [h]
      · simp [h]

/-- **The tokens of a text are those of its lines.** -/
theorem sourceTokens_eq_textTokens (text : List Char) : sourceTokens text = textTokens text := by
  unfold sourceTokens lines textTokens textLines
  rw [cutAt_eq_splitOn, ofLines_eq]

/-- A token has the number of a line of the text, and that line holds it. -/
theorem line_mem_textTokens {token : SourceToken} (h : token ∈ textTokens text) :
    1 ≤ token.line ∧ ∃ line, (textLines text)[token.line - 1]? = some line ∧
      lineToken line = token.text := by
  obtain ⟨⟨line, number⟩, hmem, htoken⟩ := List.mem_filterMap.mp h
  unfold numberedToken at htoken
  split at htoken
  · cases htoken
  · obtain rfl := Option.some.inj htoken
    -- the token has the number of its line, counted from one
    obtain ⟨hle, -, hget⟩ := List.mem_zipIdx hmem
    refine ⟨hle, line, ?_, rfl⟩
    rw [hget]
    exact List.getElem?_eq_getElem _

end LS8
