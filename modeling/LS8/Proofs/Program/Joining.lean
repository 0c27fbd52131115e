import LS8.Proofs.Program.Edits

/-!
# The tokens of joined texts

A text that is put together from two at a line feed has the tokens of both, those of the second part
under numbers that count on from the lines of the first one (`sourceTokens_join`). A text without a
line feed is a single line, the first one, and has the token of that line if the line holds anything
(`sourceTokens_inline`). Every text is either of this kind or joined from a line and a shorter text
(`text_induction`), so the two laws leave nothing open about the tokens of a text.

In particular they say where tokens can stand and what they can look like. The numbers of the lines
go up, because what is joined behind a line is numbered behind it, and none is larger than the number
of lines; and a token is what is left of its line once the comment and the blanks at both ends are
gone (`SourceToken.Stripped`). None of this depends on how the text ends: on a line feed, on a
carriage return, in a comment or in the middle of a line.
-/

namespace LS8

/-- A token as it is read off a line: something is there, nothing of it belongs to a comment, and
the blanks around it are gone. -/
structure SourceToken.Stripped (token : SourceToken) : Prop where
  nonempty : token.text ≠ []
  uncommented : '#' ∉ token.text
  inline : '\n' ∉ token.text
  first_not_blank : ∀ c ∈ token.text.head?, isBlank c = false
  last_not_blank : ∀ c ∈ token.text.getLast?, isBlank c = false

namespace SourceText

/-- What can be said of all tokens of a text, whatever the text is. -/
structure TokensInOrder (text : List Char) : Prop where
  increasing : (sourceTokens text).Pairwise fun token later => token.line < later.line
  within : ∀ token ∈ sourceTokens text, 1 ≤ token.line ∧ token.line ≤ text.count '\n' + 1
  stripped : ∀ token ∈ sourceTokens text, token.Stripped

variable {text line : List Char} {token : SourceToken}

/-! ### The two laws -/

/-- Lines that are counted from `k` more have the same tokens, `k` lines further down. -/
theorem ofLines_add (number k : Nat) (pieces : List (List Char)) :
    SourceToken.ofLines (number + k) pieces =
      (SourceToken.ofLines number pieces).map (moved fun _ => k) := by
  induction k with
  | zero => rw [moved_zero, List.map_id, Nat.add_zero]
  | succ k ih =>
    rw [← Nat.add_assoc, ofLines_succ, ih, List.map_map]
    refine List.map_congr_left fun token _ => ?_
    rw [Function.comp_apply, moved, moved, moved, Nat.add_assoc]

/-- **The tokens of two texts joined at a line feed** are the tokens of both. The line feed ends the
last line of the first text, so the second one starts on the line behind it. -/
theorem sourceTokens_join (a b : List Char) :
    sourceTokens (a ++ '\n' :: b) =
      sourceTokens a ++ (sourceTokens b).map (moved fun _ => a.count '\n' + 1) := by
  have hcount : (lines a).length = a.count '\n' + 1 := length_cutAt '\n' a
  calc sourceTokens (a ++ '\n' :: b)
      = SourceToken.ofLines 1 (lines a ++ lines b) := by rw [sourceTokens, lines_append_feed]
    _ = sourceTokens a ++ SourceToken.ofLines (1 + (lines a).length) (lines b) :=
        ofLines_append 1 (lines a) (lines b)
    _ = sourceTokens a ++ (sourceTokens b).map (moved fun _ => a.count '\n' + 1) := by
        rw [ofLines_add, hcount]
        rfl

/-- A text without a line feed has at most one token. -/
theorem sourceTokens_inline (h : '\n' ∉ line) :
    sourceTokens line = (numberedToken (line, 1)).toList := by
  rw [sourceTokens, lines_inline h, SourceToken.ofLines, code_eq_lineToken]
  by_cases hline : lineToken line = []
  · simp [numberedToken, hline, SourceToken.ofLines]
  · simp [numberedToken, hline, SourceToken.ofLines]

/-- Texts are built line by line, from the last line on. -/
theorem text_induction {P : List Char → Prop} (hline : ∀ line, '\n' ∉ line → P line)
    (hjoin : ∀ line text, '\n' ∉ line → P text → P (line ++ '\n' :: text)) (text : List Char) :
    P text := by
  induction hlength : text.length using Nat.strongRecOn generalizing text with
  | ind n ih =>
    by_cases hfeed : '\n' ∈ text
    · -- cut at the first line feed: what is behind it is shorter
      obtain ⟨line, rest, rfl, hinline⟩ := List.eq_append_cons_of_mem hfeed
      refine hjoin line rest hinline (ih rest.length ?_ rest rfl)
      rw [← hlength, List.length_append, List.length_cons]
      omega
    · exact hline text hfeed

/-! ### What is left of a line -/

/-- A line has a token when something is left of it, and at most one. -/
theorem mem_numberedToken_iff {number : Nat} :
    token ∈ numberedToken (line, number) ↔
      lineToken line ≠ [] ∧ token = { line := number, text := lineToken line } := by
  unfold numberedToken
  by_cases h : lineToken line = []
  · simp [h]
  · simp [h, eq_comm]

/-- The token of a line is a part of what stands in front of the comment. -/
theorem mem_code_of_mem_lineToken {c : Char} (h : c ∈ lineToken line) :
    c ∈ line.takeWhile (· ≠ '#') :=
  (List.dropWhile_suffix _).subset ((List.rdropWhile_prefix _ _).subset h)

/-- **What a line holds is stripped**, unless it holds nothing. -/
theorem stripped_lineToken (hline : '\n' ∉ line) (hne : lineToken line ≠ []) (number : Nat) :
    SourceToken.Stripped { line := number, text := lineToken line } where
  nonempty := hne
  uncommented h := by
    have hcode := List.mem_takeWhile_imp (mem_code_of_mem_lineToken h)
    exact absurd hcode (by decide)
  inline h := hline ((List.takeWhile_prefix _).subset (mem_code_of_mem_lineToken h))
  first_not_blank := by
    intro c hc
    -- only blanks at the other end are taken away after those in front
    obtain ⟨blanks, hblanks⟩ :=
      List.rdropWhile_prefix isBlank ((line.takeWhile (· ≠ '#')).dropWhile isBlank)
    have hhead : ((line.takeWhile (· ≠ '#')).dropWhile isBlank).head? = some c := by
      rw [← hblanks, List.head?_append]
      exact Option.or_eq_some_iff.mpr (.inl hc)
    have hfirst := List.head?_dropWhile_not isBlank (line.takeWhile (· ≠ '#'))
    rw [hhead] at hfirst
    exact hfirst
  last_not_blank := by
    intro c hc
    obtain ⟨hend, rfl⟩ := List.mem_getLast?_eq_getLast hc
    exact Bool.eq_false_of_not_eq_true (List.rdropWhile_last_not _ _ hend)

/-! ### Where tokens stand -/

/-- A single line has its tokens in order, since it has at most one. -/
theorem tokensInOrder_inline (h : '\n' ∉ line) : TokensInOrder line := by
  have hcount : line.count '\n' = 0 := List.count_eq_zero_of_not_mem h
  -- the only token a line can have is its own, with the number one
  have hmem : ∀ token ∈ sourceTokens line,
      lineToken line ≠ [] ∧ token = { line := 1, text := lineToken line } := by
    intro token htoken
    rw [sourceTokens_inline h, Option.mem_toList] at htoken
    exact mem_numberedToken_iff.mp htoken
  constructor
  · rw [sourceTokens_inline h]
    cases numberedToken (line, 1) with
    | none => exact .nil
    | some token => exact List.pairwise_singleton _ token
  · intro token htoken
    obtain ⟨-, rfl⟩ := hmem token htoken
    exact ⟨Nat.le_refl 1, Nat.le_add_left 1 _⟩
  · intro token htoken
    obtain ⟨hne, rfl⟩ := hmem token htoken
    exact stripped_lineToken h hne 1

/-- A line in front moves all tokens by one, which leaves room for its own. -/
theorem TokensInOrder.join (hline : '\n' ∉ line) (h : TokensInOrder text) :
    TokensInOrder (line ++ '\n' :: text) := by
  have hfirst := tokensInOrder_inline hline
  have hcount : line.count '\n' = 0 := List.count_eq_zero_of_not_mem hline
  have htokens : sourceTokens (line ++ '\n' :: text) =
      sourceTokens line ++ (sourceTokens text).map (moved fun _ => 1) := by
    rw [sourceTokens_join, hcount, Nat.zero_add]
  have hfeeds : (line ++ '\n' :: text).count '\n' = text.count '\n' + 1 := by
    rw [List.count_append, hcount, List.count_cons_self, Nat.zero_add]
  -- a token of the joined text is the one of the line, or one of the text on the line below
  have hmem : ∀ token ∈ sourceTokens (line ++ '\n' :: text), token ∈ sourceTokens line ∨
      ∃ token' ∈ sourceTokens text, token = moved (fun _ => 1) token' := by
    intro token htoken
    rw [htokens, List.mem_append, List.mem_map] at htoken
    exact htoken.imp_right fun ⟨token', hmem, heq⟩ => ⟨token', hmem, heq.symm⟩
  constructor
  · rw [htokens, List.pairwise_append, List.pairwise_map]
    refine ⟨hfirst.increasing, h.increasing.imp fun hlt => Nat.add_lt_add_right hlt 1, ?_⟩
    intro token htoken later hlater
    obtain ⟨token', hmem', rfl⟩ := List.mem_map.mp hlater
    have htop := hfirst.within token htoken
    have hbelow := h.within token' hmem'
    show token.line < token'.line + 1
    omega
  · intro token htoken
    rw [hfeeds]
    rcases hmem token htoken with hmem | ⟨token', hmem, rfl⟩
    · have htop := hfirst.within token hmem
      omega
    · have hbelow := h.within token' hmem
      show 1 ≤ token'.line + 1 ∧ token'.line + 1 ≤ _
      omega
  · intro token htoken
    rcases hmem token htoken with hmem | ⟨token', hmem, rfl⟩
    · exact hfirst.stripped token hmem
    · -- moving a token leaves its text alone
      exact { h.stripped token' hmem with }

/-- **The tokens of any text are in order.** -/
theorem tokensInOrder (text : List Char) : TokensInOrder text :=
  text_induction (fun _ h => tokensInOrder_inline h) (fun _ _ hline h => h.join hline) text

/-- **Reading tokens off a text respects joining.** The tokens are those of the lines of the text;
the tokens of a joined text are those of its parts, the second part's under the numbers of their
lines in the whole; and in every text the tokens stand on different lines in their order, on lines
that the text has, and are stripped. -/
theorem sourceTokens_respect_joining :
    (∀ text, sourceTokens text = textTokens text) ∧
    (∀ a b, sourceTokens (a ++ '\n' :: b) =
      sourceTokens a ++ (sourceTokens b).map (moved fun _ => a.count '\n' + 1)) ∧
    ∀ text, TokensInOrder text :=
  ⟨sourceTokens_eq_textTokens, sourceTokens_join, tokensInOrder⟩

/-- A carriage return in front of the joint belongs to the comment there, and the empty line behind
the joint is counted. -/
example : sourceTokens ("1 # one\r".toList ++ '\n' :: "\n10 ".toList) =
    [{ line := 1, text := ['1'] }, { line := 3, text := ['1', '0'] }] := by
  decide +kernel

end SourceText

end LS8
