import Mathlib.Data.List.Forall2
import LS8.Proofs.Program.Edits

/-!
# Programs written out

An image is written out by spelling each of its bytes on a line of its own. A byte has many
spellings, because zeros may stand in front of the others (`Spells`, `spells_zeros`); the canonical
one has eight digits. Whichever are chosen, parsing gives the image back
(`SourceText.parse_oneALine`): no line is taken for a blank one or for a comment, so the tokens of
the text are the spellings in their order, and the reader does not see in what way a number is
spelled.

The numbers of the lines are those of the bytes, counted from one. So an image that is too long for
the memory is refused at line 257, the first one for which there is no cell.
-/

namespace LS8

/-- A text that spells a byte in base two. It has at least one digit, and any number of zeros in
front. -/
def Spells (token : List Char) (byte : UInt8) : Prop :=
  IsBinary token ∧ binaryValue token = byte.toNat

/-- The spelling of a byte with eight digits. -/
def canonicalSpelling (byte : UInt8) : List Char :=
  (binary 8 byte.toNat).toList

variable {token : List Char} {byte : UInt8}

/-! ### Spellings of a byte -/

/-- **A byte is spelled by its digits**, with any number of zeros in front. -/
theorem spells_zeros (zeros : Nat) (byte : UInt8) :
    Spells (List.replicate zeros '0' ++ Nat.toDigits 2 byte.toNat) byte := by
  have hne : Nat.toDigits 2 byte.toNat ≠ [] := List.ne_nil_of_length_pos Nat.length_toDigits_pos
  refine ⟨⟨List.append_ne_nil_of_right_ne_nil _ hne, ?_⟩, ?_⟩
  · intro c hc
    rcases List.mem_append.mp hc with hc | hc
    · exact .inl (List.eq_of_mem_replicate hc)
    · exact mem_toDigits_two c hc
  · rw [binaryValue_zeros_append, binaryValue_toDigits]

/-- The canonical spelling is the shortest one, behind zeros. -/
theorem canonicalSpelling_eq (byte : UInt8) : canonicalSpelling byte =
    List.replicate (8 - (Nat.toDigits 2 byte.toNat).length) '0' ++ Nat.toDigits 2 byte.toNat := by
  simp [canonicalSpelling, binary, List.leftpad]

/-- It spells its byte. -/
theorem spells_canonicalSpelling (byte : UInt8) : Spells (canonicalSpelling byte) byte := by
  rw [canonicalSpelling_eq]
  exact spells_zeros _ byte

/-- No byte has more than eight digits, so padding to eight gives exactly as many. -/
theorem length_canonicalSpelling (byte : UInt8) : (canonicalSpelling byte).length = 8 := by
  have hdigits : (Nat.toDigits 2 byte.toNat).length ≤ 8 :=
    (Nat.length_toDigits_le_iff (by decide) (by decide)).mpr byte.toNat_lt
  rw [canonicalSpelling_eq, List.length_append, List.length_replicate]
  exact Nat.sub_add_cancel hdigits

/-- A spelling of a byte has a value that a byte holds. -/
theorem Spells.spellsByte (h : Spells token byte) : SpellsByte token := by
  refine ⟨h.1, ?_⟩
  rw [h.2]
  exact Nat.le_of_lt_succ byte.toNat_lt

/-! ### Literals alone on their lines -/

/-- A literal has nothing in it that a line could lose. -/
theorem lineToken_of_isBinary (h : IsBinary token) : lineToken token = token := by
  -- no digit starts a comment, and none is a blank
  have hdigit : ∀ c ∈ token, c ≠ '#' ∧ isBlank c = false := by
    intro c hc
    rcases h.2 c hc with rfl | rfl
    · exact ⟨by decide, by decide⟩
    · exact ⟨by decide, by decide⟩
  have hcode : token.takeWhile (· ≠ '#') = token :=
    List.takeWhile_eq_self_iff.mpr fun c hc => decide_eq_true (hdigit c hc).1
  have hfront : token.dropWhile isBlank = token := by
    refine List.dropWhile_eq_self_iff.mpr fun hpos => ?_
    rw [(hdigit _ (List.getElem_mem hpos)).2]
    exact Bool.false_ne_true
  have hback : token.rdropWhile isBlank = token := by
    refine List.rdropWhile_eq_self_iff.mpr fun hne => ?_
    rw [(hdigit _ (List.getLast_mem hne)).2]
    exact Bool.false_ne_true
  unfold lineToken
  rw [hcode, hfront, hback]

theorem IsBinary.inline (h : IsBinary token) : '\n' ∉ token := by
  intro hfeed
  rcases h.2 '\n' hfeed with heq | heq
  · exact absurd heq (by decide)
  · exact absurd heq (by decide)

namespace SourceText

/-- Tokens as a text with one of them on each line. The last line may be closed by a line feed as
the others are, or be left open. -/
def oneALine (tokens : List (List Char)) (closed : Bool) : List Char :=
  List.intercalate ['\n'] tokens ++ if closed then ['\n'] else []

/-- Tokens numbered from one. -/
def numbered (tokens : List (List Char)) : List SourceToken :=
  (tokens.zipIdx 1).map fun (text, line) => { line, text }

variable {tokens : List (List Char)} {bytes : List UInt8}

@[simp] theorem length_numbered (tokens : List (List Char)) :
    (numbered tokens).length = tokens.length := by
  simp [numbered]

@[simp] theorem map_text_numbered (tokens : List (List Char)) :
    (numbered tokens).map (·.text) = tokens := by
  unfold numbered
  rw [List.map_map]
  exact List.zipIdx_map_fst 1 tokens

/-- The tokens are numbered from one. -/
theorem line_getElem_numbered {i : Nat} (h : i < (numbered tokens).length) :
    (numbered tokens)[i].line = 1 + i := by
  simp [numbered]

/-- Tokens that are joined by line feeds are the lines of the text. -/
theorem lines_intercalate (hne : tokens ≠ []) (h : ∀ token ∈ tokens, '\n' ∉ token) :
    lines (List.intercalate ['\n'] tokens) = tokens := by
  induction tokens with
  | nil => exact absurd rfl hne
  | cons first tokens ih =>
    have hfirst : '\n' ∉ first := h first List.mem_cons_self
    cases tokens with
    | nil =>
      rw [List.intercalate_singleton]
      exact lines_inline hfirst
    | cons second tokens =>
      -- the line feed behind the first token ends its line
      rw [List.intercalate_cons_cons, List.append_assoc, List.singleton_append, lines_append_feed,
        lines_inline hfirst,
        ih (List.cons_ne_nil _ _) fun token htoken => h token (List.mem_cons_of_mem first htoken)]
      rfl

/-- Each of these lines is its own token. -/
theorem ofLines_of_isBinary (h : ∀ token ∈ tokens, IsBinary token) (number : Nat) :
    SourceToken.ofLines number tokens =
      (tokens.zipIdx number).map fun (text, line) => { line, text } := by
  induction tokens generalizing number with
  | nil => rfl
  | cons first tokens ih =>
    have hfirst : IsBinary first := h first List.mem_cons_self
    -- binary digits are neither blanks nor the start of a comment, and there is at least one
    have hsome : ¬ first.isEmpty = true := by
      rw [List.isEmpty_iff]
      exact hfirst.1
    rw [SourceToken.ofLines, code_eq_lineToken, lineToken_of_isBinary hfirst, if_neg hsome,
      ih fun token htoken => h token (List.mem_cons_of_mem first htoken)]
    rfl

/-- **The tokens of a text with one literal on each line are the literals.** -/
theorem sourceTokens_oneALine (h : ∀ token ∈ tokens, IsBinary token) (closed : Bool) :
    sourceTokens (oneALine tokens closed) = numbered tokens := by
  have hopen : sourceTokens (List.intercalate ['\n'] tokens) = numbered tokens := by
    by_cases hne : tokens = []
    · subst hne
      rfl
    · rw [sourceTokens, lines_intercalate hne fun token htoken => (h token htoken).inline]
      exact ofLines_of_isBinary h 1
  cases closed with
  | false =>
    unfold oneALine
    rw [if_neg Bool.false_ne_true, List.append_nil]
    exact hopen
  | true =>
    -- the last line feed only adds a line on which nothing stands
    have hedit : Edit (List.intercalate ['\n'] tokens) (oneALine tokens true) fun _ => 0 :=
      .appendLine _ [] (.blank [] blanks_nil)
    rw [sourceTokens_of_edit hedit, moved_zero, List.map_id]
    exact hopen

/-! ### Written and parsed -/

/-- Spellings are made of binary digits. -/
theorem isBinary_of_spells (h : List.Forall₂ Spells tokens bytes) :
    ∀ token ∈ tokens, IsBinary token := by
  induction h with
  | nil =>
    intro token htoken
    cases htoken
  | cons hfirst _ ih => exact List.forall_mem_cons.mpr ⟨hfirst.1, ih⟩

/-- Their values are values of bytes. -/
theorem spellsByte_of_spells (h : List.Forall₂ Spells tokens bytes) :
    ∀ token ∈ tokens, SpellsByte token := by
  induction h with
  | nil =>
    intro token htoken
    cases htoken
  | cons hfirst _ ih => exact List.forall_mem_cons.mpr ⟨hfirst.spellsByte, ih⟩

/-- These are the bytes that they spell. -/
theorem values_of_spells (h : List.Forall₂ Spells tokens bytes) :
    bytes.map (·.toNat) = tokens.map binaryValue := by
  induction h with
  | nil => rfl
  | cons hfirst _ ih => rw [List.map_cons, List.map_cons, ih, hfirst.2]

/-- **The tokens of a text with one spelling a line are its spellings.** -/
theorem textTokens_oneALine (h : List.Forall₂ Spells tokens bytes) (closed : Bool) :
    textTokens (String.ofList (oneALine tokens closed)).toList = numbered tokens := by
  rw [String.toList_ofList, ← sourceTokens_eq_textTokens]
  exact sourceTokens_oneALine (isBinary_of_spells h) closed

/-- **What is written out is parsed back**, in whatever way the bytes are spelled. -/
theorem parse_oneALine (h : List.Forall₂ Spells tokens bytes) (hfits : bytes.length ≤ 256)
    (closed : Bool) : parseProgram (String.ofList (oneALine tokens closed)) = .ok bytes := by
  apply parse_of_means
  rw [textTokens_oneALine h]
  apply Means.image
  · rw [length_numbered, h.length_eq]
    exact hfits
  · intro token htoken
    have htext : token.text ∈ (numbered tokens).map (·.text) := List.mem_map_of_mem htoken
    rw [map_text_numbered] at htext
    exact spellsByte_of_spells h token.text htext
  · calc bytes.map (·.toNat) = tokens.map binaryValue := values_of_spells h
      _ = ((numbered tokens).map (·.text)).map binaryValue := by rw [map_text_numbered]
      _ = (numbered tokens).map fun token => binaryValue token.text := List.map_map

/-- An image that is too long is refused where the first byte stands that has no cell. -/
theorem parse_oneALine_of_lt (h : List.Forall₂ Spells tokens bytes) (hlong : 256 < bytes.length)
    (closed : Bool) : parseProgram (String.ofList (oneALine tokens closed)) =
      .error (.atLine (.machine (.programTooLarge bytes.length 256)) 257) := by
  have hlength : (numbered tokens).length = bytes.length := by rw [length_numbered, h.length_eq]
  have hcount : 256 < (numbered tokens).length := by
    rw [hlength]
    exact hlong
  apply parse_of_means
  rw [textTokens_oneALine h]
  -- the tokens are numbered from one, so the first one that is too many has number 257
  have hmeans := Means.tooLong hcount
  rw [hlength, line_getElem_numbered] at hmeans
  exact hmeans

/-- Any bytes have canonical spellings. -/
theorem forall₂_canonicalSpelling (bytes : List UInt8) :
    List.Forall₂ Spells (bytes.map canonicalSpelling) bytes := by
  induction bytes with
  | nil => exact .nil
  | cons byte bytes ih => exact .cons (spells_canonicalSpelling byte) ih

/-- **Writing an image out and parsing it gives the image back.** Each byte may be spelled in any
way, on a line of its own. An image that is too long is refused at the first line too many. And
whatever text an image comes from, the image written out with eight digits a byte is parsed to it
again. -/
theorem written_parses_back :
    (∀ tokens bytes closed, List.Forall₂ Spells tokens bytes →
      (bytes.length ≤ 256 →
        parseProgram (String.ofList (oneALine tokens closed)) = .ok bytes) ∧
      (256 < bytes.length →
        parseProgram (String.ofList (oneALine tokens closed)) =
          .error (.atLine (.machine (.programTooLarge bytes.length 256)) 257))) ∧
    ∀ text image closed, parseProgram text = .ok image →
      (∀ byte ∈ image, (canonicalSpelling byte).length = 8) ∧
        parseProgram (String.ofList (oneALine (image.map canonicalSpelling) closed)) =
          .ok image := by
  constructor
  · intro tokens bytes closed hspells
    constructor
    · intro hfits
      exact parse_oneALine hspells hfits closed
    · intro hlong
      exact parse_oneALine_of_lt hspells hlong closed
  · intro text image closed hparse
    constructor
    · intro byte _
      exact length_canonicalSpelling byte
    · exact parse_oneALine (forall₂_canonicalSpelling image) (length_le_of_parse hparse) closed

/-- Three bytes, one of them with zeros in front and one that is nothing else; and one byte more than
there are cells. -/
theorem written_parses_back_zeros :
    List.Forall₂ Spells [['1', '0', '1'], ['0', '0', '0', '0', '0', '0', '0', '0', '1'], ['0', '0']]
      [5, 1, 0] ∧
    parseProgram (String.ofList (oneALine
      [['1', '0', '1'], ['0', '0', '0', '0', '0', '0', '0', '0', '1'], ['0', '0']] false)) =
        .ok [5, 1, 0] ∧
    parseProgram (String.ofList
      (oneALine ((List.replicate 257 7).map canonicalSpelling) true)) =
        .error (.atLine (.machine (.programTooLarge 257 256)) 257) ∧
    parseProgram "101 # five" = .ok [5] ∧
    parseProgram (String.ofList (oneALine ([5].map canonicalSpelling) true)) = .ok [5] := by
  have hspells : List.Forall₂ Spells
      [['1', '0', '1'], ['0', '0', '0', '0', '0', '0', '0', '0', '1'], ['0', '0']] [5, 1, 0] :=
    .cons (spells_zeros 0 5) (.cons (spells_zeros 8 1) (.cons (spells_zeros 1 0) .nil))
  have hlong : (List.replicate 257 (7 : UInt8)).length = 257 := List.length_replicate
  have hparse : parseProgram "101 # five" = .ok [5] := by decide +kernel
  obtain ⟨hwritten, hagain⟩ := written_parses_back
  have hrefused := (hwritten _ _ true (forall₂_canonicalSpelling (List.replicate 257 7))).2
    (by rw [hlong]; decide)
  rw [hlong] at hrefused
  exact ⟨hspells, (hwritten _ _ false hspells).1 (by decide), hrefused, hparse,
    (hagain _ _ true hparse).2⟩

end SourceText

end LS8
