import LS8.Proofs.Program.Literal
import LS8.Proofs.Program.Tokens

/-!
# What a program text means

The tokens of a text decide what it means, and `Means` says how. A text with too many tokens is
refused for their number, whatever they are; otherwise the first token that spells no byte is
reported, and only without such a token is there an image. The three cases exclude each other and
leave nothing out (`exists_means`, `parse_of_means`), so `Means` is a function of the tokens, and
parsing computes it (`parseProgram_decides`).
-/

namespace LS8

/-- What a list of tokens amounts to. -/
inductive Means (tokens : List SourceToken) : Except LoadError (List UInt8) → Prop
  /-- The first token that has no cell left is where the text is too long. -/
  | tooLong (long : 256 < tokens.length) :
      Means tokens (.error
        (.atLine (.machine (.programTooLarge tokens.length 256)) tokens[256].line))
  /-- The tokens `before` the reported one are fine, and those in `later` do not matter. -/
  | malformed (fits : tokens.length ≤ 256) (before : List SourceToken) (token : SourceToken)
      (later : List SourceToken) (split : tokens = before ++ token :: later)
      (fine : ∀ earlier ∈ before, SpellsByte earlier.text) (kind : LoadErrorKind)
      (wrong : Malformed token.text kind) :
      Means tokens (.error (.atLine kind token.line))
  | image (fits : tokens.length ≤ 256) (fine : ∀ token ∈ tokens, SpellsByte token.text)
      (bytes : List UInt8)
      (spelled : bytes.map (·.toNat) = tokens.map fun token => binaryValue token.text) :
      Means tokens (.ok bytes)

variable {tokens before later : List SourceToken} {token : SourceToken} {kind : LoadErrorKind}
variable {result : Except LoadError (List UInt8)}

/-! ### One token after another -/

/-- Tokens that spell bytes denote them in order. -/
theorem mapM_byte_of_spellsByte (h : ∀ token ∈ tokens, SpellsByte token.text) :
    tokens.mapM SourceToken.byte =
      .ok (tokens.map fun token => UInt8.ofNat (binaryValue token.text)) := by
  induction tokens with
  | nil => rfl
  | cons token tokens ih =>
    have hfirst : token.byte = .ok (UInt8.ofNat (binaryValue token.text)) := by
      rw [SourceToken.byte, literalByte_of_spellsByte (h token List.mem_cons_self)]
      rfl
    rw [List.mapM_cons, hfirst, ih fun later hlater => h later (List.mem_cons_of_mem token hlater)]
    rfl

/-- The first malformed token is the one that is reported. -/
theorem mapM_byte_of_malformed (hbefore : ∀ earlier ∈ before, SpellsByte earlier.text)
    (h : Malformed token.text kind) :
    (before ++ token :: later).mapM SourceToken.byte = .error (.atLine kind token.line) := by
  have htoken : token.byte = .error (.atLine kind token.line) := by
    rw [SourceToken.byte, literalByte_of_malformed h]
    rfl
  rw [List.mapM_append, mapM_byte_of_spellsByte hbefore, List.mapM_cons, htoken]
  rfl

/-- Either all tokens spell bytes, or there is a first one that does not. -/
theorem exists_first_malformed (h : ¬ ∀ token ∈ tokens, SpellsByte token.text) :
    ∃ before token later kind, tokens = before ++ token :: later ∧
      (∀ earlier ∈ before, SpellsByte earlier.text) ∧ Malformed token.text kind := by
  induction tokens with
  | nil => exact absurd (fun token hmem => absurd hmem List.not_mem_nil) h
  | cons first tokens ih =>
    -- the first token is the malformed one, or there is one behind it
    by_cases hfirst : SpellsByte first.text
    · have hrest : ¬ ∀ token ∈ tokens, SpellsByte token.text := fun hall =>
        h (List.forall_mem_cons.mpr ⟨hfirst, hall⟩)
      obtain ⟨before, token, later, kind, hsplit, hfine, hwrong⟩ := ih hrest
      exact ⟨first :: before, token, later, kind, by rw [hsplit, List.cons_append],
        List.forall_mem_cons.mpr ⟨hfirst, hfine⟩, hwrong⟩
    · obtain ⟨kind, hwrong⟩ := malformed_iff.mpr hfirst
      exact ⟨[], first, tokens, kind, rfl, fun _ hmem => absurd hmem List.not_mem_nil, hwrong⟩

/-! ### The meaning exists, and parsing finds it -/

/-- Any tokens mean an image or an error. -/
theorem exists_means (tokens : List SourceToken) : ∃ result, Means tokens result := by
  by_cases hlong : 256 < tokens.length
  · exact ⟨_, .tooLong hlong⟩
  have hfits : tokens.length ≤ 256 := Nat.le_of_not_lt hlong
  by_cases hfine : ∀ token ∈ tokens, SpellsByte token.text
  · refine ⟨_, .image hfits hfine (tokens.map fun t => UInt8.ofNat (binaryValue t.text)) ?_⟩
    rw [List.map_map]
    refine List.map_congr_left fun token hmem => ?_
    -- the value is below 256, so nothing of it is lost in the byte
    exact UInt8.toNat_ofNat_of_lt' (Nat.lt_succ_of_le (hfine token hmem).2)
  · obtain ⟨before, token, later, kind, hsplit, hbefore, hwrong⟩ := exists_first_malformed hfine
    exact ⟨_, .malformed hfits before token later hsplit hbefore kind hwrong⟩

/-- **A text parses to what its tokens mean.** -/
theorem parse_of_means {text : String} (h : Means (textTokens text.toList) result) :
    parseProgram text = result := by
  unfold parseProgram
  rw [sourceTokens_eq_textTokens]
  generalize textTokens text.toList = tokens at h
  have hroom : tokens.length ≤ 256 → tokens[Memory.capacity]? = none :=
    fun hfits => List.getElem?_eq_none hfits
  -- the capacity is checked before any token is looked at
  cases h with
  | tooLong hlong =>
    have hget : tokens[Memory.capacity]? = some tokens[256] := List.getElem?_eq_getElem hlong
    simp only [hget]
    rfl
  | malformed hfits before token later hsplit hfine kind hwrong =>
    simp only [hroom hfits]
    rw [hsplit, mapM_byte_of_malformed hfine hwrong]
  | image hfits hfine bytes hspelled =>
    simp only [hroom hfits]
    have hbytes : bytes = tokens.map fun token => UInt8.ofNat (binaryValue token.text) := by
      have hback : bytes = (bytes.map (·.toNat)).map UInt8.ofNat := by simp [Function.comp_def]
      rw [hback, hspelled, List.map_map]
      rfl
    rw [mapM_byte_of_spellsByte hfine, hbytes]

/-- What an error of a text says about its place: the line of a token, in no file. -/
theorem Means.exists_token {error : LoadError} (h : Means tokens (.error error)) :
    ∃ token ∈ tokens, error.location = some { file := none, line := token.line } := by
  cases h with
  | tooLong hlong => exact ⟨tokens[256], List.getElem_mem hlong, rfl⟩
  | malformed hfits before token later hsplit hfine kind hwrong =>
    refine ⟨token, ?_, rfl⟩
    rw [hsplit]
    exact List.mem_append_right before List.mem_cons_self

/-- **Parsing decides every text exactly.** The answer is what the tokens of the text mean, and
nothing else; and an error names a line that the text has. -/
theorem parseProgram_decides (text : String) :
    (∀ result, parseProgram text = result ↔ Means (textTokens text.toList) result) ∧
    ∀ error, parseProgram text = .error error →
      ∃ line, error.location = some { file := none, line } ∧
        1 ≤ line ∧ line ≤ (textLines text.toList).length := by
  have hmeans : ∀ result, parseProgram text = result ↔ Means (textTokens text.toList) result := by
    intro result
    constructor
    · rintro rfl
      obtain ⟨result, h⟩ := exists_means (textTokens text.toList)
      rw [parse_of_means h]
      exact h
    · exact parse_of_means
  refine ⟨hmeans, fun error herror => ?_⟩
  -- an error lies at a token, and tokens stand in lines that the text has
  obtain ⟨token, htoken, hlocation⟩ := ((hmeans _).mp herror).exists_token
  obtain ⟨hpos, line, hline, -⟩ := line_mem_textTokens htoken
  have hlt : token.line - 1 < (textLines text.toList).length :=
    (List.getElem?_eq_some_iff.mp hline).1
  exact ⟨token.line, hlocation, hpos, by omega⟩

/-- The third line holds the first token that is wrong; the first line is a comment. -/
theorem parseProgram_decides_commented :
    parseProgram "# five\n101 # ok\r\n  102\n2" = .error (.atLine (.invalidLiteral "102") 3) ∧
    Means (textTokens "# five\n101 # ok\r\n  102\n2".toList)
      (.error (.atLine (.invalidLiteral "102") 3)) ∧
    3 ≤ (textLines "# five\n101 # ok\r\n  102\n2".toList).length := by
  have hparse : parseProgram "# five\n101 # ok\r\n  102\n2" =
      .error (.atLine (.invalidLiteral "102") 3) := by
    decide +kernel
  obtain ⟨hmeans, hline⟩ := parseProgram_decides "# five\n101 # ok\r\n  102\n2"
  obtain ⟨line, hlocation, -, hle⟩ := hline _ hparse
  cases hlocation
  exact ⟨hparse, (hmeans _).mp hparse, hle⟩

end LS8
