import LS8.CommandLine.Execute
import LS8.Proofs.Program.Loading
import LS8.Proofs.Text.Lines

/-!
# Edits that leave a program as it is

Comments, blank lines, blanks at the ends of lines and the style of line ends are there for the
reader of a program text. `Edit` lists what one may do about them: insert a line without a token,
append a comment to a line, put blanks at either end of a line, and put a carriage return in front
of a line feed. Each of them happens at a place in the text, and a place is given by what stands in
front of it and behind it. Edits may be made in any number and order (`Edits`).

An edit also says how many lines it inserts in front of which line. That is all the tokens of the
text can tell of it (`sourceTokens_of_edits`): they are the same, and each stands on its old line,
under its new number. Parsing passes this on: the image stays the same, and an error names the new
number (`edits_keep_program`).

An edit inside a line is followed in three steps: a place in the text is a place in one of its lines
(`exists_lineStart`, `lines_of_lineStart`), that line is replaced by another one
(`sourceTokens_replace`), and the two lines hold the same (`lineToken_append_blanks` and its
neighbours).
-/

namespace LS8

namespace SourceText

/-- Blanks that stay on their line. -/
structure Blanks (cs : List Char) : Prop where
  blank : ∀ c ∈ cs, isBlank c = true
  inline : '\n' ∉ cs

theorem blanks_nil : Blanks [] := ⟨fun _ hc => absurd hc List.not_mem_nil, List.not_mem_nil⟩

/-- The lines without a token. -/
inductive Vacant : List Char → Prop
  | blank (blanks : List Char) (fine : Blanks blanks) : Vacant blanks
  | comment (blanks comment : List Char) (fine : Blanks blanks) (inline : '\n' ∉ comment) :
      Vacant (blanks ++ '#' :: comment)

/-- What may stand in front of the start of a line. -/
inductive LineStart : List Char → Prop
  | first : LineStart []
  | next (before : List Char) : LineStart (before ++ ['\n'])

/-- What may stand behind the end of a line. -/
inductive LineEnd : List Char → Prop
  | last : LineEnd []
  | feed (after : List Char) : LineEnd ('\n' :: after)
  | returnFeed (after : List Char) : LineEnd ('\r' :: '\n' :: after)

/-- One edit, and how many lines it inserts in front of the line with a given number. -/
inductive Edit : List Char → List Char → (Nat → Nat) → Prop
  /-- The lines in front of the place are those whose line feeds stand there. -/
  | insertLine (before line after : List Char) (start : LineStart before) (vacant : Vacant line) :
      Edit (before ++ after) (before ++ (line ++ '\n' :: after))
        fun number => if number ≤ before.count '\n' then 0 else 1
  /-- The new last line has no line feed. -/
  | appendLine (text line : List Char) (vacant : Vacant line) :
      Edit text (text ++ '\n' :: line) fun _ => 0
  | comment (before comment after : List Char) (stop : LineEnd after) (inline : '\n' ∉ comment) :
      Edit (before ++ after) (before ++ ('#' :: comment ++ after)) fun _ => 0
  | indent (before blanks after : List Char) (start : LineStart before) (fine : Blanks blanks) :
      Edit (before ++ after) (before ++ (blanks ++ after)) fun _ => 0
  | pad (before blanks after : List Char) (stop : LineEnd after) (fine : Blanks blanks) :
      Edit (before ++ after) (before ++ (blanks ++ after)) fun _ => 0
  | returnFeed (before after : List Char) :
      Edit (before ++ '\n' :: after) (before ++ '\r' :: '\n' :: after) fun _ => 0

/-- Edits one after another, and how many lines they insert in front of the line that has a given
number in the first text. -/
inductive Edits : List Char → List Char → (Nat → Nat) → Prop
  | none (text : List Char) : Edits text text fun _ => 0
  | step {text mid text' : List Char} {inserted more : Nat → Nat}
      (earlier : Edits text mid inserted) (edit : Edit mid text' more) :
      Edits text text' fun number => inserted number + more (number + inserted number)

variable {text text' before after line blanks comment : List Char} {inserted : Nat → Nat}

/-! ### Places are places in lines -/

/-- In front of the start of a line stand whole lines. -/
theorem lines_of_lineStart (h : LineStart before) :
    ∃ whole, whole.length = before.count '\n' ∧
      ∀ after, lines (before ++ after) = whole ++ lines after := by
  cases h with
  | first => exact ⟨[], rfl, fun _ => rfl⟩
  | next before =>
    refine ⟨lines before, ?_, fun after => ?_⟩
    · rw [lines, length_cutAt, List.count_append, List.count_singleton_self]
    · rw [List.append_assoc, List.singleton_append, lines_append_feed]

/-- Every place is inside of a line, or at one of its ends. -/
theorem exists_lineStart (before : List Char) :
    ∃ whole line, before = whole ++ line ∧ LineStart whole ∧ '\n' ∉ line := by
  induction before using List.reverseRecOn with
  | nil => exact ⟨[], [], rfl, .first, List.not_mem_nil⟩
  | append_singleton before c ih =>
    -- a line feed starts a line of its own, any other character goes on with the last one
    by_cases hc : c = '\n'
    · subst hc
      exact ⟨before ++ ['\n'], [], (List.append_nil _).symm, .next before, List.not_mem_nil⟩
    · obtain ⟨whole, line, rfl, hstart, hline⟩ := ih
      refine ⟨whole, line ++ [c], List.append_assoc whole line [c], hstart, ?_⟩
      rw [List.mem_append, List.mem_singleton, not_or]
      exact ⟨hline, fun h => hc h.symm⟩

/-- Nothing but blanks is left of a line behind its end. -/
theorem lines_of_lineEnd (h : LineEnd after) :
    ∃ rest later, lines after = rest :: later ∧ ∀ c ∈ rest, isBlank c = true := by
  cases h with
  | last => exact ⟨[], [], rfl, fun c hc => absurd hc List.not_mem_nil⟩
  | feed after => exact ⟨[], lines after, lines_append_feed [] after,
      fun c hc => absurd hc List.not_mem_nil⟩
  | returnFeed after =>
    refine ⟨['\r'], lines after, lines_append_feed ['\r'] after, fun c hc => ?_⟩
    rw [List.mem_singleton.mp hc]
    decide

/-! ### What a line holds -/

/-- Blanks at the end of a line do not belong to its token. -/
theorem lineToken_append_blanks (h : ∀ c ∈ blanks, isBlank c = true) (line : List Char) :
    lineToken (line ++ blanks) = lineToken line := by
  induction blanks using List.reverseRecOn with
  | nil => rw [List.append_nil]
  | append_singleton blanks c ih =>
    have hc : isBlank c = true := h c (List.mem_append_right blanks List.mem_cons_self)
    rw [← List.append_assoc, lineToken_append_blank hc]
    exact ih fun d hd => h d (List.mem_append_left [c] hd)

/-- Neither does a comment. -/
theorem lineToken_append_comment (line comment : List Char) :
    lineToken (line ++ '#' :: comment) = lineToken line := by
  have hcut : (line ++ '#' :: comment).takeWhile (· ≠ '#') = line.takeWhile (· ≠ '#') := by
    rw [List.takeWhile_append]
    split
    · next hall =>
      have hself : line.takeWhile (· ≠ '#') = line := (List.takeWhile_prefix _).eq_of_length hall
      have hmark : List.takeWhile (· ≠ '#') ('#' :: comment) = [] := rfl
      rw [hself, hmark, List.append_nil]
    · rfl
  rw [lineToken, hcut, lineToken]

/-- Nor do blanks at the start of a line. -/
theorem lineToken_blanks_append (h : ∀ c ∈ blanks, isBlank c = true) (line : List Char) :
    lineToken (blanks ++ line) = lineToken line := by
  have hmark : ∀ c ∈ blanks, decide (c ≠ '#') = true := by
    intro c hc
    rw [decide_eq_true_eq]
    rintro rfl
    exact absurd (h _ hc) (by decide)
  rw [lineToken, List.takeWhile_append_of_pos hmark, List.dropWhile_append_of_pos h, lineToken]

/-- A vacant line has no token, and it is a single line. -/
theorem lineToken_of_vacant (h : Vacant line) : lineToken line = [] ∧ '\n' ∉ line := by
  have hblanks : ∀ {blanks : List Char}, Blanks blanks → lineToken blanks = [] := fun hfine =>
    lineToken_append_blanks hfine.blank []
  cases h with
  | blank _ hfine => exact ⟨hblanks hfine, hfine.inline⟩
  | comment blanks comment hfine hinline =>
    refine ⟨(lineToken_append_comment blanks comment).trans (hblanks hfine), ?_⟩
    rw [List.mem_append, List.mem_cons, not_or, not_or]
    exact ⟨hfine.inline, by decide, hinline⟩

/-! ### The tokens of the lines -/

/-- A token under the new number of its line. -/
def moved (inserted : Nat → Nat) (token : SourceToken) : SourceToken :=
  { token with line := token.line + inserted token.line }

theorem moved_zero : moved (fun _ => 0) = id := rfl

/-- The tokens of some lines are followed by those of the lines behind them. -/
theorem ofLines_append (number : Nat) (earlier later : List (List Char)) :
    SourceToken.ofLines number (earlier ++ later) =
      SourceToken.ofLines number earlier ++
        SourceToken.ofLines (number + earlier.length) later := by
  induction earlier generalizing number with
  | nil => rfl
  | cons line earlier ih =>
    have hnumber : number + (line :: earlier).length = number + 1 + earlier.length := by
      rw [List.length_cons]
      omega
    rw [List.cons_append, SourceToken.ofLines, SourceToken.ofLines, ih, hnumber]
    -- whether this line has a token is the same question on both sides
    split
    · rfl
    · rfl

/-- A line without a token only moves the numbers of the later lines. -/
theorem ofLines_cons_of_lineToken (h : lineToken line = []) (number : Nat)
    (later : List (List Char)) :
    SourceToken.ofLines number (line :: later) = SourceToken.ofLines (number + 1) later := by
  rw [SourceToken.ofLines, code_eq_lineToken, h]
  rfl

/-- Lines are looked at one by one, for what they hold. -/
theorem ofLines_cons_congr {line' : List Char} (h : lineToken line' = lineToken line)
    (number : Nat) (later : List (List Char)) :
    SourceToken.ofLines number (line' :: later) = SourceToken.ofLines number (line :: later) := by
  rw [SourceToken.ofLines, SourceToken.ofLines, code_eq_lineToken, code_eq_lineToken, h]

/-- Lines that are counted from one more have the same tokens, one line further down. -/
theorem ofLines_succ (number : Nat) (pieces : List (List Char)) :
    SourceToken.ofLines (number + 1) pieces =
      (SourceToken.ofLines number pieces).map (moved fun _ => 1) := by
  induction pieces generalizing number with
  | nil => rfl
  | cons line pieces ih =>
    rw [SourceToken.ofLines, SourceToken.ofLines, ih]
    split
    · rfl
    · rfl

/-- A token is on one of the lines it was taken from. -/
theorem line_of_mem_ofLines {number : Nat} {pieces : List (List Char)} {token : SourceToken}
    (h : token ∈ SourceToken.ofLines number pieces) :
    number ≤ token.line ∧ token.line < number + pieces.length := by
  induction pieces generalizing number with
  | nil => cases h
  | cons line pieces ih =>
    rw [List.length_cons]
    rw [SourceToken.ofLines] at h
    -- the token is the one of this line, or it is on a later one
    split at h
    · obtain ⟨hle, hlt⟩ := ih h
      omega
    · rcases List.mem_cons.mp h with rfl | hlater
      · exact ⟨Nat.le_refl number, Nat.lt_add_of_pos_right (Nat.succ_pos _)⟩
      · obtain ⟨hle, hlt⟩ := ih hlater
        omega

/-- A line without a token, between whole lines, moves the tokens behind it. -/
theorem ofLines_insert (h : lineToken line = []) (whole later : List (List Char)) :
    SourceToken.ofLines 1 (whole ++ line :: later) =
      (SourceToken.ofLines 1 (whole ++ later)).map
        (moved fun number => if number ≤ whole.length then 0 else 1) := by
  -- the tokens of the whole lines have numbers up to their count, the others have larger ones
  have hfront : (SourceToken.ofLines 1 whole).map
      (moved fun number => if number ≤ whole.length then 0 else 1) =
        SourceToken.ofLines 1 whole := by
    refine List.map_congr_left (fun token hmem => ?_) |>.trans (List.map_id _)
    have hle : token.line ≤ whole.length := by
      have hline := line_of_mem_ofLines hmem
      omega
    rw [moved, if_pos hle]
    rfl
  have hback : (SourceToken.ofLines (1 + whole.length) later).map
      (moved fun number => if number ≤ whole.length then 0 else 1) =
        SourceToken.ofLines (1 + whole.length + 1) later := by
    rw [ofLines_succ]
    refine List.map_congr_left fun token hmem => ?_
    have hlt : ¬ token.line ≤ whole.length := by
      have hline := line_of_mem_ofLines hmem
      omega
    rw [moved, if_neg hlt]
    rfl
  rw [ofLines_append, ofLines_append, List.map_append, hfront, hback, ofLines_cons_of_lineToken h]

/-! ### Edits move tokens -/

/-- A line may be replaced by one that holds the same, wherever in the line the place is. -/
theorem sourceTokens_replace {whole line' : List Char} (hstart : LineStart whole)
    (hline : '\n' ∉ line) (hline' : '\n' ∉ line')
    (h : ∀ rest later, lines after = rest :: later →
      lineToken (line' ++ rest) = lineToken (line ++ rest)) :
    sourceTokens (whole ++ (line' ++ after)) = sourceTokens (whole ++ (line ++ after)) := by
  obtain ⟨pieces, -, hpieces⟩ := lines_of_lineStart hstart
  obtain ⟨rest, later, hafter⟩ := exists_lines after
  rw [sourceTokens, sourceTokens, hpieces, hpieces, lines_inline_append hline hafter,
    lines_inline_append hline' hafter, ofLines_append, ofLines_append,
    ofLines_cons_congr (h rest later hafter)]

/-- What is put at the end of a line does not matter if the line holds the same with it. -/
theorem sourceTokens_lineEnd {cs : List Char} (hstop : LineEnd after) (hinline : '\n' ∉ cs)
    (h : ∀ line, lineToken (line ++ cs) = lineToken line) (before : List Char) :
    sourceTokens (before ++ (cs ++ after)) = sourceTokens (before ++ after) := by
  -- the line that ends at the place is what is replaced
  obtain ⟨whole, line, rfl, hstart, hline⟩ := exists_lineStart before
  have hline' : '\n' ∉ line ++ cs := by
    rw [List.mem_append, not_or]
    exact ⟨hline, hinline⟩
  rw [List.append_assoc, List.append_assoc, ← List.append_assoc line]
  refine sourceTokens_replace hstart hline hline' fun rest later hafter => ?_
  -- what is left of the line behind the place are blanks
  obtain ⟨rest', later', hafter', hblanks⟩ := lines_of_lineEnd hstop
  obtain ⟨rfl, -⟩ := List.cons.inj (hafter.symm.trans hafter')
  calc lineToken (line ++ cs ++ rest) = lineToken (line ++ cs) := lineToken_append_blanks hblanks _
    _ = lineToken line := h line
    _ = lineToken (line ++ rest) := (lineToken_append_blanks hblanks line).symm

/-- Blanks at the start of a line change no token. -/
theorem sourceTokens_lineStart (hstart : LineStart before) (hfine : Blanks blanks)
    (after : List Char) :
    sourceTokens (before ++ (blanks ++ after)) = sourceTokens (before ++ after) := by
  have hnothing : '\n' ∉ ([] : List Char) := List.not_mem_nil
  exact sourceTokens_replace hstart hnothing hfine.inline fun rest _ _ =>
    lineToken_blanks_append hfine.blank rest

/-- **An edit moves the tokens and leaves them as they are.** -/
theorem sourceTokens_of_edit (h : Edit text text' inserted) :
    sourceTokens text' = (sourceTokens text).map (moved inserted) := by
  cases h with
  | insertLine before line after hstart hvacant =>
    obtain ⟨htoken, hinline⟩ := lineToken_of_vacant hvacant
    obtain ⟨whole, hlength, hwhole⟩ := lines_of_lineStart hstart
    rw [sourceTokens, sourceTokens, hwhole, hwhole, lines_append_feed, lines_inline hinline,
      List.singleton_append, ofLines_insert htoken, hlength]
  | appendLine text line hvacant =>
    obtain ⟨htoken, hinline⟩ := lineToken_of_vacant hvacant
    rw [moved_zero, List.map_id, sourceTokens, sourceTokens, lines_append_feed,
      lines_inline hinline, ofLines_append, ofLines_cons_of_lineToken htoken]
    exact List.append_nil _
  | comment before comment after hstop hinline =>
    rw [moved_zero, List.map_id]
    have hcomment : '\n' ∉ '#' :: comment := by
      rw [List.mem_cons, not_or]
      exact ⟨by decide, hinline⟩
    exact sourceTokens_lineEnd hstop hcomment (lineToken_append_comment · comment) before
  | indent before blanks after hstart hfine =>
    rw [moved_zero, List.map_id]
    exact sourceTokens_lineStart hstart hfine after
  | pad before blanks after hstop hfine =>
    rw [moved_zero, List.map_id]
    exact sourceTokens_lineEnd hstop hfine.inline (lineToken_append_blanks hfine.blank) before
  | returnFeed before after =>
    rw [moved_zero, List.map_id]
    -- the carriage return is a blank at the end of the line
    have hblank : ∀ c ∈ ['\r'], isBlank c = true := List.forall_mem_singleton.mpr (by decide)
    exact sourceTokens_lineEnd (.feed after) (by decide) (lineToken_append_blanks hblank) before

/-- **Any number of edits moves the tokens by the lines inserted above them.** -/
theorem sourceTokens_of_edits (h : Edits text text' inserted) :
    sourceTokens text' = (sourceTokens text).map (moved inserted) := by
  induction h with
  | none => rw [moved_zero, List.map_id]
  | step earlier edit ih =>
    rw [sourceTokens_of_edit edit, ih, List.map_map]
    refine List.map_congr_left fun token _ => ?_
    rw [Function.comp_apply, moved, moved, moved, Nat.add_assoc]

/-! ### Parsing moved tokens -/

/-- An error under the new number of its line. -/
def movedError (inserted : Nat → Nat) (error : LoadError) : LoadError :=
  { error with location := error.location.map fun location =>
      { location with line := location.line + inserted location.line } }

/-- A moved token denotes the same byte, or is malformed in the same way on its new line. -/
theorem byte_moved (inserted : Nat → Nat) (token : SourceToken) :
    (moved inserted token).byte = token.byte.mapError (movedError inserted) := by
  unfold SourceToken.byte moved
  cases literalByte token.text with
  | error kind => rfl
  | ok byte => rfl

/-- So do the tokens of a text together. -/
theorem mapM_byte_moved (inserted : Nat → Nat) (tokens : List SourceToken) :
    (tokens.map (moved inserted)).mapM SourceToken.byte =
      (tokens.mapM SourceToken.byte).mapError (movedError inserted) := by
  induction tokens with
  | nil => rfl
  | cons token tokens ih =>
    rw [List.map_cons, List.mapM_cons, List.mapM_cons, byte_moved, ih]
    -- the first malformed token decides, and it is the same one after the move
    cases token.byte with
    | error error => rfl
    | ok byte =>
      cases tokens.mapM SourceToken.byte with
      | error error => rfl
      | ok bytes => rfl

/-- **Edits do not change what a text parses to, up to the line of the error.** -/
theorem parseProgram_of_edits {text text' : String} (h : Edits text.toList text'.toList inserted) :
    parseProgram text' = (parseProgram text).mapError (movedError inserted) := by
  unfold parseProgram
  rw [sourceTokens_of_edits h]
  generalize sourceTokens text.toList = tokens
  -- there is a token too many in both texts, or in neither
  cases hget : tokens[Memory.capacity]? with
  | none =>
    simp only [List.getElem?_map, hget, Option.map_none]
    exact mapM_byte_moved inserted tokens
  | some token =>
    simp only [List.getElem?_map, hget, Option.map_some, List.length_map]
    rfl

/-- What the two texts have in common. -/
structure SameProgram (text text' : String) (inserted : Nat → Nat) : Prop where
  tokens : sourceTokens text'.toList = (sourceTokens text.toList).map (moved inserted)
  image : ∀ image, parseProgram text = .ok image → parseProgram text' = .ok image
  /-- The kind of an error is its reason, with everything that the reason carries. -/
  error : ∀ error, parseProgram text = .error error →
    ∃ line, error.location = some { file := none, line } ∧ parseProgram text' =
      .error { kind := error.kind, location := some { file := none, line := line + inserted line } }
  loaded : ∀ (m m' : Machine) path,
    m.loadFile path (.text text) = .ok m' → m.loadFile path (.text text') = .ok m'
  executed : ∀ image, parseProgram text = .ok image →
    ∀ (options : CommandLine.Options) (stdout : Writer),
      options.execute (.text text') stdout = options.execute (.text text) stdout

/-- The error of a text names a line and no file. -/
theorem exists_line {text : String} {error : LoadError} (h : parseProgram text = .error error) :
    ∃ line, error.location = some { file := none, line } := by
  obtain ⟨kind, line, rfl, -⟩ := exists_ofText h
  exact ⟨line, rfl⟩

/-- Loading a file depends on what its text parses to and on nothing else of it. -/
theorem loadFile_congr {text text' : String} (h : parseProgram text' = parseProgram text)
    (m : Machine) (path : String) :
    m.loadFile path (.text text') = m.loadFile path (.text text) := by
  rw [Machine.loadFile_text, Machine.loadFile_text, h]

/-- A text that loads has an image. -/
theorem exists_image_of_loadFile {text : String} {m m' : Machine} {path : String}
    (h : m.loadFile path (.text text) = .ok m') : ∃ image, parseProgram text = .ok image := by
  rw [Machine.loadFile_text] at h
  cases hparse : parseProgram text with
  | ok image => exact ⟨image, rfl⟩
  | error error =>
    rw [hparse] at h
    cases h

/-- **Edits keep the program.** However many edits lead from one text to another, the image is the
same, and with it what loading and executing make of it; and an error is the same, on the same line
under its new number. -/
theorem edits_keep_program {text text' : String} {inserted : Nat → Nat}
    (h : Edits text.toList text'.toList inserted) : SameProgram text text' inserted := by
  have hparse := parseProgram_of_edits h
  -- without an error there is nothing to move, so both texts give the same answer
  have himage : ∀ image, parseProgram text = .ok image →
      parseProgram text' = parseProgram text := by
    intro image himage
    rw [hparse, himage]
    rfl
  refine ⟨sourceTokens_of_edits h, ?_, ?_, ?_, ?_⟩
  · intro image hok
    rw [himage image hok, hok]
  · intro error herror
    obtain ⟨line, hline⟩ := exists_line herror
    refine ⟨line, hline, ?_⟩
    rw [hparse, herror]
    -- the location is known, so the moved one is
    show Except.error (movedError inserted error) = _
    rw [movedError, hline]
    rfl
  · intro m m' path hload
    obtain ⟨image, hok⟩ := exists_image_of_loadFile hload
    rw [loadFile_congr (himage image hok), hload]
  · intro image hok options stdout
    unfold CommandLine.Options.execute
    rw [loadFile_congr (himage image hok)]

/-- The second line is wrong, and stands on the third line behind a line of comment. The first line
gets a carriage return, and the second one a comment without a blank in front of it. -/
theorem edits_keep_program_commented :
    ∃ inserted, Edits "10\n2".toList "# two\n10\r\n2#no".toList inserted ∧
      SameProgram "10\n2" "# two\n10\r\n2#no" inserted ∧ inserted 2 = 1 ∧
      parseProgram "10\n2" = .error (.atLine (.invalidLiteral "2") 2) ∧
      parseProgram "# two\n10\r\n2#no" = .error (.atLine (.invalidLiteral "2") 3) := by
  -- a comment line above, a carriage return in front of a line feed, a comment behind the code
  have hcomment : Edit "10\n2".toList "# two\n10\n2".toList _ :=
    .insertLine [] ['#', ' ', 't', 'w', 'o'] ['1', '0', '\n', '2'] .first
      (.comment [] [' ', 't', 'w', 'o'] blanks_nil (by decide))
  have hreturn : Edit "# two\n10\n2".toList "# two\n10\r\n2".toList _ :=
    .returnFeed ['#', ' ', 't', 'w', 'o', '\n', '1', '0'] ['2']
  have hbehind : Edit "# two\n10\r\n2".toList "# two\n10\r\n2#no".toList _ :=
    .comment ['#', ' ', 't', 'w', 'o', '\n', '1', '0', '\r', '\n', '2'] ['n', 'o'] [] .last
      (by decide)
  have hedits := (((Edits.none _).step hcomment).step hreturn).step hbehind
  exact ⟨_, hedits, edits_keep_program hedits, rfl, by decide +kernel, by decide +kernel⟩

end SourceText

end LS8
