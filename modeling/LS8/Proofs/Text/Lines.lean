import LS8.Text.Cut

/-!
# The lines of composed texts

A line feed is the only thing that ends a line, so where a text is put together at a line feed, its
lines are those of the parts (`lines_append_feed`). Everything else about `lines` follows from this
and from what the lines of a text without a line feed are (`lines_inline`): a text without a line
feed goes in front of the first line of the text behind it, and texts that are each closed by a line
feed come back one by one (`lines_flatMap_feed`).
-/

namespace LS8

variable {line after : List Char}

/-- A line feed ends a line and starts another one. -/
theorem lines_append_feed (before after : List Char) :
    lines (before ++ '\n' :: after) = lines before ++ lines after := by
  induction before with
  | nil => exact cutAt_cons_self '\n' after
  | cons c before ih =>
    have hpiece : lines before ≠ [] := cutAt_ne_nil '\n' before
    unfold lines at ih hpiece ⊢
    -- a line feed of its own makes an empty line in front; any other character joins the first line
    by_cases hc : c = '\n'
    · rw [hc, List.cons_append, cutAt_cons_self, cutAt_cons_self, ih, List.cons_append]
    · rw [List.cons_append, cutAt_cons_of_ne hc, cutAt_cons_of_ne hc, ih]
      obtain ⟨piece, pieces, hlines⟩ := List.exists_cons_of_ne_nil hpiece
      rw [hlines]
      rfl

/-- Characters of one line go in front of the first line behind them. -/
theorem lines_inline_append {cs rest : List Char} {later : List (List Char)} (h : '\n' ∉ cs)
    (hafter : lines after = rest :: later) : lines (cs ++ after) = (cs ++ rest) :: later := by
  induction cs with
  | nil => exact hafter
  | cons c cs ih =>
    rw [List.mem_cons, not_or] at h
    obtain ⟨hc, hcs⟩ := h
    show cutAt '\n' (c :: (cs ++ after)) = _
    rw [cutAt_cons_of_ne (Ne.symm hc)]
    show consFirst c (lines (cs ++ after)) = _
    rw [ih hcs]
    rfl

theorem exists_lines (text : List Char) : ∃ rest later, lines text = rest :: later :=
  List.exists_cons_of_ne_nil (cutAt_ne_nil '\n' text)

/-- A text without line feeds is a single line. -/
theorem lines_inline (h : '\n' ∉ line) : lines line = [line] := by
  have hnothing : lines [] = [] :: [] := rfl
  have hlines := lines_inline_append h hnothing
  rwa [List.append_nil] at hlines

/-- Texts that are written one behind the other, each with a line feed, are the lines of what is
written. -/
theorem lines_flatMap_feed {texts : List (List Char)} (h : ∀ text ∈ texts, '\n' ∉ text)
    (after : List Char) : lines (texts.flatMap (· ++ ['\n']) ++ after) = texts ++ lines after := by
  induction texts with
  | nil => rfl
  | cons text texts ih =>
    rw [List.forall_mem_cons] at h
    obtain ⟨htext, htexts⟩ := h
    calc lines ((text :: texts).flatMap (· ++ ['\n']) ++ after)
        = lines (text ++ '\n' :: (texts.flatMap (· ++ ['\n']) ++ after)) := by simp
      _ = lines text ++ lines (texts.flatMap (· ++ ['\n']) ++ after) := lines_append_feed _ _
      _ = text :: texts ++ lines after := by rw [lines_inline htext, ih htexts]; rfl

end LS8
