import Mathlib.Data.List.TakeWhile
import LS8.Json.Token
import LS8.Json.Writer
import LS8.Proofs.Json.Escape
import LS8.Proofs.Text.Numeral

/-!
# Written values are scanned

`Json.tokens` lists the tokens of a value, without blanks. The scanner finds exactly these in what
the writer writes (`scanFrom_write`), whatever the layout puts between them, if only it is blanks.

The argument follows the text from left to right. `scanFrom found cs` is what the scanner makes of a
text with `found` behind it. Each piece of a text moves its tokens over to `found`: blanks
(`scanFrom_blanks`), marks (`scanFrom_mark`), quoted texts (`scanFrom_quote`) and words
(`scanFrom_word`). Only a word needs to know what follows: it would go on with any character that
can stand in a word. What the writer puts behind a value never starts with one.
-/

namespace LS8

namespace Json

/-- The values whose scalars are written as this library writes them: numbers in digits, and strings
and keys with everything escaped that has to be. -/
inductive Written : Json → Prop
  | null : Written .null
  | bool (value : Bool) : Written (.bool value)
  | number (n : Nat) : Written (.number (Nat.toDigits 10 n))
  | string (cs : List Char) : Written (.string (escape cs))
  | array (items : List Json) (items_written : ∀ item ∈ items, Written item) :
      Written (.array items)
  | object (members : List (List Char × Json)) (keys_written : ∀ m ∈ members, ∃ cs, m.1 = escape cs)
      (values_written : ∀ m ∈ members, Written m.2) : Written (.object members)

mutual

/-- The tokens of a value. -/
def tokens : Json → List Token
  | null => [.null]
  | bool value => [.bool value]
  | number literal => [.number literal]
  | string body => [.string body]
  | array [] => [.openArray, .closeArray]
  | array (item :: items) => .openArray :: (tokens item ++ itemTokens items)
  | object [] => [.openObject, .closeObject]
  | object (member :: members) => .openObject :: (memberTokens member ++ membersTokens members)

/-- The tokens of the items behind the first one, and of the closing bracket. -/
def itemTokens : List Json → List Token
  | [] => [.closeArray]
  | item :: items => .comma :: (tokens item ++ itemTokens items)

/-- The tokens of a member of an object. -/
def memberTokens : List Char × Json → List Token
  | (key, value) => .string key :: .colon :: tokens value

/-- The tokens of the members behind the first one, and of the closing brace. -/
def membersTokens : List (List Char × Json) → List Token
  | [] => [.closeObject]
  | member :: members => .comma :: (memberTokens member ++ membersTokens members)

end

/-- The layouts that put nothing but blanks between tokens. -/
structure Layout.Blank (layout : Layout) : Prop where
  newline_blank : ∀ depth, ∀ c ∈ layout.newline depth, isJsonBlank c = true
  afterColon_blank : ∀ c ∈ layout.afterColon, isJsonBlank c = true

theorem Layout.blank_compact : Layout.compact.Blank where
  newline_blank := fun _ _ hc => absurd hc List.not_mem_nil
  afterColon_blank := fun _ hc => absurd hc List.not_mem_nil

theorem Layout.blank_indented : Layout.indented.Blank where
  newline_blank := by
    intro depth c hc
    rcases List.mem_cons.mp hc with rfl | hc
    · rfl
    · rw [List.eq_of_mem_replicate hc]
      rfl
  afterColon_blank := by
    intro c hc
    rw [List.mem_singleton.mp hc]
    rfl

/-! ### Numerals are words -/

/-- A decimal numeral is a number of JSON: it has no sign and no zeros in front. -/
theorem isNumberLiteral_toDigits (n : Nat) : isNumberLiteral (Nat.toDigits 10 n) = true := by
  rcases toDigits_eq_zero_or_cons n with hzero | ⟨c, cs, hcons, hc⟩
  · rw [hzero]
    rfl
  · have hdigits : ∀ d ∈ c :: cs, d.isDigit = true := fun d hd =>
      isDigit_of_mem_toDigits (n := n) (hcons ▸ hd)
    have hfirst : c.isDigit = true := hdigits c List.mem_cons_self
    -- a numeral has no sign, and all of it belongs to its integer part
    have hminus : skipMinus (c :: cs) = c :: cs := by
      unfold skipMinus
      split
      · next heq =>
        obtain ⟨rfl, -⟩ := List.cons.inj heq
        cases hfirst
      · rfl
    have hinteger : skipInteger (c :: cs) = some [] := by
      unfold skipInteger
      split
      · next heq => exact absurd (List.cons.inj heq).1 hc
      · rw [skipDigits, if_pos hfirst, List.dropWhile_eq_nil_iff.mpr]
        exact fun d hd => hdigits d (List.mem_cons_of_mem c hd)
    unfold isNumberLiteral
    rw [hcons, hminus, hinteger]
    rfl

/-- A numeral is the word of its number, and none of the three names. -/
theorem word?_toDigits (n : Nat) :
    word? (Nat.toDigits 10 n) = some (.number (Nat.toDigits 10 n)) := by
  have hne : ∀ c cs, c.isDigit = false → Nat.toDigits 10 n ≠ c :: cs := by
    intro c cs hc h
    have hdigit := isDigit_of_mem_toDigits (n := n) (h ▸ List.mem_cons_self)
    rw [hc] at hdigit
    cases hdigit
  unfold word?
  rw [if_neg (hne _ _ rfl), if_neg (hne _ _ rfl), if_neg (hne _ _ rfl),
    if_pos (isNumberLiteral_toDigits n)]

theorem isWordChar_of_isDigit {c : Char} (h : c.isDigit = true) : isWordChar c = true := by
  simp [isWordChar, Char.isAlphanum, h]

/-! ### One piece after another -/

/-- What a scanner makes of the rest of a text. -/
def Scanner.complete (scanner : Scanner) (cs : List Char) : Option (List Token) :=
  (cs.foldlM step scanner).bind finish

/-- What the scanner makes of a text in front of which it has found some tokens. -/
def scanFrom (found : List Token) (cs : List Char) : Option (List Token) :=
  Scanner.complete { found := found.reverse } cs

/-- The text does not go on with a character that could belong to a word. -/
def Apart (rest : List Char) : Prop :=
  ∀ c ∈ rest.head?, isWordChar c = false

variable {found earlier : List Token} {rest seen blanks word body : List Char} {c : Char}
variable {scanner scanner' : Scanner} {token : Token}

/-- Scanning goes one character at a time. -/
theorem Scanner.complete_cons (scanner : Scanner) (c : Char) (cs : List Char) :
    scanner.complete (c :: cs) = (scanner.step c).bind fun next => next.complete cs := by
  unfold complete
  rw [List.foldlM_cons]
  exact Option.bind_assoc _ _ _

theorem Scanner.complete_of_step (h : scanner.step c = some scanner') (cs : List Char) :
    scanner.complete (c :: cs) = scanner'.complete cs := by
  rw [complete_cons, h, Option.bind_some]

theorem Scanner.step_nothing : step { found := earlier } c = start earlier c := rfl

theorem Scanner.step_word : step { found := earlier, pending := .word seen } c =
    if isWordChar c then some { found := earlier, pending := .word (c :: seen) }
    else (word? seen.reverse).bind fun token => start (token :: earlier) c := rfl

theorem Scanner.step_quoted : step { found := earlier, pending := .quoted seen } c =
    if c = '"' then
      if wellFormedBody seen.reverse then some { found := .string seen.reverse :: earlier }
      else none
    else if c = '\\' then some { found := earlier, pending := .escaped (c :: seen) }
    else if c.toNat < 0x20 then none
    else some { found := earlier, pending := .quoted (c :: seen) } := rfl

theorem Scanner.step_escaped : step { found := earlier, pending := .escaped seen } c =
    if c.toNat < 0x20 then none
    else some { found := earlier, pending := .quoted (c :: seen) } := rfl

theorem scan_eq_scanFrom (cs : List Char) : scan cs = scanFrom [] cs := rfl

theorem scanFrom_nil (found : List Token) : scanFrom found [] = some found := by
  simp [scanFrom, Scanner.complete, Scanner.finish]

theorem isWordChar_of_isJsonBlank (h : isJsonBlank c = true) : isWordChar c = false := by
  simp only [isJsonBlank, Bool.or_eq_true, beq_iff_eq] at h
  rcases h with ((rfl | rfl) | rfl) | rfl <;> rfl

/-- Blanks end a word. -/
theorem apart_blanks_append (h : ∀ c ∈ blanks, isJsonBlank c = true) (hrest : Apart rest) :
    Apart (blanks ++ rest) := by
  cases blanks with
  | nil => exact hrest
  | cons c blanks =>
    intro d hd
    obtain rfl : c = d := Option.some.inj hd
    exact isWordChar_of_isJsonBlank (h c List.mem_cons_self)

/-- Between tokens, a blank is passed over. -/
theorem scanFrom_blank (h : isJsonBlank c = true) :
    scanFrom found (c :: rest) = scanFrom found rest := by
  have hstep : Scanner.step { found := found.reverse } c = some { found := found.reverse } := by
    rw [Scanner.step_nothing, Scanner.start, if_pos h]
  exact Scanner.complete_of_step hstep rest

theorem scanFrom_blanks (h : ∀ c ∈ blanks, isJsonBlank c = true) :
    scanFrom found (blanks ++ rest) = scanFrom found rest := by
  induction blanks with
  | nil => rfl
  | cons c blanks ih =>
    rw [List.cons_append, scanFrom_blank (h c List.mem_cons_self)]
    exact ih fun d hd => h d (List.mem_cons_of_mem c hd)

/-- A mark is a token of its own. -/
theorem scanFrom_mark (token : Token) (h : mark? c = some token) :
    scanFrom found (c :: rest) = scanFrom (found ++ [token]) rest := by
  have hstep : Scanner.step { found := found.reverse } c =
      some { found := (found ++ [token]).reverse } := by
    rw [List.reverse_append]
    unfold mark? at h
    split at h
    all_goals first
      | cases h; rfl
      | cases h
  exact Scanner.complete_of_step hstep rest

/-! ### Words -/

/-- Inside a word, the scanner collects characters. -/
theorem complete_word_append (h : ∀ c ∈ word, isWordChar c = true) :
    Scanner.complete { found := earlier, pending := .word seen } (word ++ rest) =
      Scanner.complete { found := earlier, pending := .word (word.reverse ++ seen) } rest := by
  induction word generalizing seen with
  | nil => rfl
  | cons c word ih =>
    -- the scanner keeps in reverse what it has seen of a word
    have hstep : Scanner.step { found := earlier, pending := .word seen } c =
        some { found := earlier, pending := .word (c :: seen) } := by
      rw [Scanner.step_word, if_pos (h c List.mem_cons_self)]
    rw [List.cons_append, Scanner.complete_of_step hstep,
      ih fun d hd => h d (List.mem_cons_of_mem c hd)]
    simp

/-- A word that is complete gives its token, and what comes next starts afresh. -/
theorem complete_word_of_apart (hword : word? seen.reverse = some token) (hrest : Apart rest) :
    Scanner.complete { found := earlier, pending := .word seen } rest =
      Scanner.complete { found := token :: earlier } rest := by
  cases rest with
  | nil => simp [Scanner.complete, Scanner.finish, hword]
  | cons c rest =>
    have hc : ¬ isWordChar c = true := by simp [hrest c rfl]
    rw [Scanner.complete_cons, Scanner.complete_cons, Scanner.step_word, if_neg hc, hword,
      Option.bind_some, Scanner.step_nothing]

/-- **A word is scanned**, if what follows is apart from it. -/
theorem scanFrom_word (hne : word ≠ []) (h : ∀ c ∈ word, isWordChar c = true)
    (hword : word? word = some token) (hrest : Apart rest) :
    scanFrom found (word ++ rest) = scanFrom (found ++ [token]) rest := by
  obtain ⟨c, cs, rfl⟩ := List.exists_cons_of_ne_nil hne
  have hfirst : isWordChar c = true := h c List.mem_cons_self
  -- the first character is neither a blank nor a quote, so it starts a word
  have hstart : Scanner.step { found := found.reverse } c =
      some { found := found.reverse, pending := .word [c] } := by
    have hblank : ¬ isJsonBlank c = true := by
      intro hblank
      rw [isWordChar_of_isJsonBlank hblank] at hfirst
      cases hfirst
    have hquote : c ≠ '"' := by
      rintro rfl
      cases hfirst
    rw [Scanner.step_nothing, Scanner.start, if_neg hblank, if_neg hquote, if_pos hfirst]
  have hseen : word? (cs.reverse ++ [c]).reverse = some token := by
    rw [List.reverse_append, List.reverse_reverse]
    exact hword
  rw [scanFrom, List.cons_append, Scanner.complete_of_step hstart,
    complete_word_append fun d hd => h d (List.mem_cons_of_mem c hd),
    complete_word_of_apart hseen hrest, scanFrom, List.reverse_append]
  rfl

/-! ### Quoted texts -/

/-- Inside a quoted text, every written form of a character goes into the text. -/
theorem complete_form_append (h : EscapeForm c body) :
    Scanner.complete { found := earlier, pending := .quoted seen } (body ++ rest) =
      Scanner.complete { found := earlier, pending := .quoted (body.reverse ++ seen) } rest := by
  have hplain : ∀ {seen : List Char} {d : Char}, Plain d →
      Scanner.step { found := earlier, pending := .quoted seen } d =
        some { found := earlier, pending := .quoted (d :: seen) } := by
    intro seen d hd
    rw [Scanner.step_quoted, if_neg hd.not_quote, if_neg hd.not_backslash, if_neg hd.visible]
  have hbackslash : Scanner.step { found := earlier, pending := .quoted seen } '\\' =
      some { found := earlier, pending := .escaped ('\\' :: seen) } := rfl
  have hescaped : ∀ {seen : List Char} {d : Char}, ¬ d.toNat < 0x20 →
      Scanner.step { found := earlier, pending := .escaped seen } d =
        some { found := earlier, pending := .quoted (d :: seen) } := by
    intro seen d hd
    rw [Scanner.step_escaped, if_neg hd]
  cases h with
  | plain hc => exact Scanner.complete_of_step (hplain hc) rest
  | short mark hmark =>
    obtain ⟨-, hd⟩ := mark_of_shortEscape? hmark
    exact (Scanner.complete_of_step hbackslash _).trans
      (Scanner.complete_of_step (hescaped hd) rest)
  | unit high low hcontrol hunit hhigh hlow =>
    have hzero : Plain '0' := ⟨by decide, by decide, by decide⟩
    -- behind the backslash and its mark come four digits, which are plain characters
    simp only [List.cons_append, List.nil_append]
    rw [Scanner.complete_of_step hbackslash, Scanner.complete_of_step (hescaped (by decide)),
      Scanner.complete_of_step (hplain hzero), Scanner.complete_of_step (hplain hzero),
      Scanner.complete_of_step (hplain hhigh), Scanner.complete_of_step (hplain hlow)]
    rfl

/-- Inside a quoted text, the scanner collects an escaped text character by character. -/
theorem complete_escape_append (cs : List Char) :
    Scanner.complete { found := earlier, pending := .quoted seen } (escape cs ++ rest) =
      Scanner.complete { found := earlier, pending := .quoted ((escape cs).reverse ++ seen) }
        rest := by
  induction cs generalizing seen with
  | nil => rfl
  | cons c cs ih =>
    rw [escape_cons, List.append_assoc, complete_form_append (escapeForm c), ih]
    simp

/-- **A quoted text is scanned**, and it needs nothing to keep it apart. -/
theorem scanFrom_quote (cs : List Char) :
    scanFrom found (quote (escape cs) ++ rest) =
      scanFrom (found ++ [Token.string (escape cs)]) rest := by
  -- the two quotes open and close the pending text, and the body only adds to it
  have hopen : Scanner.step { found := found.reverse } '"' =
      some { found := found.reverse, pending := .quoted [] } := rfl
  have hclose : Scanner.step
      { found := found.reverse, pending := .quoted ((escape cs).reverse ++ []) } '"' =
        some { found := (found ++ [Token.string (escape cs)]).reverse } := by
    rw [Scanner.step_quoted, if_pos rfl, List.append_nil, List.reverse_reverse,
      if_pos (wellFormedBody_escape cs), List.reverse_append]
    rfl
  rw [quote, List.cons_append, List.append_assoc, scanFrom, Scanner.complete_of_step hopen,
    complete_escape_append]
  exact Scanner.complete_of_step hclose rest

/-! ### Values -/

variable {layout : Layout}

/-- The scanner finds the tokens of a value in what the writer writes for it. -/
def Scans (layout : Layout) (value : Json) : Prop :=
  ∀ depth found rest, Apart rest →
    scanFrom found (write layout depth value ++ rest) = scanFrom (found ++ tokens value) rest

theorem apart_mark (token : Token) (h : mark? c = some token) : Apart (c :: rest) := by
  intro d hd
  obtain rfl : c = d := Option.some.inj hd
  unfold mark? at h
  split at h
  all_goals first
    | rfl
    | cases h

/-- What is behind an item is a comma, a blank or a bracket, which all end a word. -/
theorem apart_writeItems (hlayout : layout.Blank) (depth : Nat) (items : List Json) :
    Apart (writeItems layout depth items ++ rest) := by
  cases items with
  | nil =>
    rw [writeItems, List.append_assoc]
    exact apart_blanks_append (hlayout.newline_blank depth) (apart_mark .closeArray rfl)
  | cons item items =>
    rw [writeItems]
    exact apart_mark .comma rfl

/-- The same holds behind a member. -/
theorem apart_writeMembers (hlayout : layout.Blank) (depth : Nat)
    (members : List (List Char × Json)) :
    Apart (writeMembers layout depth members ++ rest) := by
  cases members with
  | nil =>
    rw [writeMembers, List.append_assoc]
    exact apart_blanks_append (hlayout.newline_blank depth)
      (apart_mark .closeObject rfl)
  | cons member members =>
    rw [writeMembers]
    exact apart_mark .comma rfl

/-- The items behind the first one are scanned if each of them is. -/
theorem scanFrom_writeItems (hlayout : layout.Blank) (depth : Nat) {items : List Json}
    (h : ∀ item ∈ items, Scans layout item) (found : List Token) (rest : List Char) :
    scanFrom found (writeItems layout depth items ++ rest) =
      scanFrom (found ++ itemTokens items) rest := by
  induction items generalizing found with
  | nil =>
    rw [writeItems, List.append_assoc, scanFrom_blanks (hlayout.newline_blank depth)]
    exact scanFrom_mark _ rfl
  | cons item items ih =>
    have hfirst := h item List.mem_cons_self
    have hlater := ih fun later hl => h later (List.mem_cons_of_mem item hl)
    -- the comma, the blanks of the layout and the item; a word would end with what follows
    rw [writeItems, List.cons_append, scanFrom_mark .comma rfl, List.append_assoc,
      scanFrom_blanks (hlayout.newline_blank (depth + 1)), List.append_assoc,
      hfirst (depth + 1) _ _ (apart_writeItems hlayout depth items), hlater, itemTokens]
    simp

/-- A member is scanned if its value is: the key and the colon are ended by themselves. -/
theorem scanFrom_writeMember (hlayout : layout.Blank) (depth : Nat) {member : List Char × Json}
    (hkey : ∃ cs, member.1 = escape cs) (hvalue : Scans layout member.2) (found : List Token)
    (hrest : Apart rest) :
    scanFrom found (writeMember layout depth member ++ rest) =
      scanFrom (found ++ memberTokens member) rest := by
  obtain ⟨key, value⟩ := member
  obtain ⟨cs, rfl⟩ := hkey
  rw [writeMember, List.append_assoc, scanFrom_quote, List.cons_append,
    scanFrom_mark .colon rfl, List.append_assoc layout.afterColon,
    scanFrom_blanks hlayout.afterColon_blank, hvalue (depth + 1) _ _ hrest, memberTokens]
  simp

/-- The members behind the first one are scanned if the values of all are. -/
theorem scanFrom_writeMembers (hlayout : layout.Blank) (depth : Nat)
    {members : List (List Char × Json)} (hkeys : ∀ m ∈ members, ∃ cs, m.1 = escape cs)
    (hvalues : ∀ m ∈ members, Scans layout m.2) (found : List Token) (rest : List Char) :
    scanFrom found (writeMembers layout depth members ++ rest) =
      scanFrom (found ++ membersTokens members) rest := by
  induction members generalizing found with
  | nil =>
    rw [writeMembers, List.append_assoc, scanFrom_blanks (hlayout.newline_blank depth)]
    exact scanFrom_mark _ rfl
  | cons member members ih =>
    -- the member is followed by a comma or by the end, either of which ends its last word
    have hlater := ih (fun m hm => hkeys m (List.mem_cons_of_mem member hm))
      fun m hm => hvalues m (List.mem_cons_of_mem member hm)
    rw [writeMembers, List.cons_append, scanFrom_mark .comma rfl, List.append_assoc,
      scanFrom_blanks (hlayout.newline_blank (depth + 1)), List.append_assoc,
      scanFrom_writeMember hlayout depth (hkeys member List.mem_cons_self)
        (hvalues member List.mem_cons_self) _ (apart_writeMembers hlayout depth members),
      hlater, membersTokens]
    simp

/-- **The scanner finds what the writer writes.** -/
theorem scanFrom_write (hlayout : layout.Blank) {value : Json} (h : Written value) :
    Scans layout value := by
  induction h with
  | null =>
    intro depth found rest hrest
    rw [write, tokens]
    exact scanFrom_word (List.cons_ne_nil _ _) (List.all_eq_true.mp rfl) rfl hrest
  | bool value =>
    intro depth found rest hrest
    cases value with
    | true =>
      rw [write, tokens]
      exact scanFrom_word (List.cons_ne_nil _ _) (List.all_eq_true.mp rfl) rfl hrest
    | false =>
      rw [write, tokens]
      exact scanFrom_word (List.cons_ne_nil _ _) (List.all_eq_true.mp rfl) rfl hrest
  | number n =>
    -- the only scalar without a fixed end, so what follows has to be apart from it
    intro depth found rest hrest
    have hne : Nat.toDigits 10 n ≠ [] := List.ne_nil_of_length_pos Nat.length_toDigits_pos
    rw [write, tokens]
    exact scanFrom_word hne (fun c hc => isWordChar_of_isDigit (isDigit_of_mem_toDigits hc))
      (word?_toDigits n) hrest
  | string cs =>
    intro depth found rest hrest
    rw [write, tokens]
    exact scanFrom_quote cs
  | array items hitems ih =>
    intro depth found rest hrest
    -- empty containers are written without blanks, so they are a case of their own
    cases items with
    | nil =>
      rw [write, List.cons_append, scanFrom_mark .openArray rfl, List.singleton_append,
        scanFrom_mark .closeArray rfl, tokens, List.append_assoc]
      rfl
    | cons item items =>
      have hlater := scanFrom_writeItems hlayout depth
        fun later hl => ih later (List.mem_cons_of_mem item hl)
      rw [write, List.cons_append, scanFrom_mark .openArray rfl, List.append_assoc,
        scanFrom_blanks (hlayout.newline_blank (depth + 1)), List.append_assoc,
        ih item List.mem_cons_self (depth + 1) _ _ (apart_writeItems hlayout depth items), hlater,
        tokens]
      simp
  | object members hkeys hvalues ih =>
    intro depth found rest hrest
    cases members with
    | nil =>
      rw [write, List.cons_append, scanFrom_mark .openObject rfl, List.singleton_append,
        scanFrom_mark .closeObject rfl, tokens, List.append_assoc]
      rfl
    | cons member members =>
      have hlater := scanFrom_writeMembers hlayout depth
        (fun m hm => hkeys m (List.mem_cons_of_mem member hm))
        fun m hm => ih m (List.mem_cons_of_mem member hm)
      rw [write, List.cons_append, scanFrom_mark .openObject rfl, List.append_assoc,
        scanFrom_blanks (hlayout.newline_blank (depth + 1)), List.append_assoc,
        scanFrom_writeMember hlayout depth (hkeys member List.mem_cons_self)
          (ih member List.mem_cons_self) _ (apart_writeMembers hlayout depth members),
        hlater, tokens]
      simp

end Json

end LS8
