import LS8.Program.File
import LS8.Proofs.Program.Parse

/-!
# Loading a program file

The size of a program is looked at twice. The parser counts the tokens of a text before it looks at
any of them, and the machine compares the length of an image with its memory before it installs it.
Every token makes one byte, so an image that comes out of the parser has passed the second check
with the first one (`length_le_of_parse`), and a machine refuses nothing that was parsed
(`Machine.load_of_parse`).

What is left that can go wrong with a program file lies in front of the machine: there is no such
file, it cannot be read, or its text is wrong. `Machine.Loads` lists these cases with what is
reported. A text is always wrong at one of its lines, so the file is named with the line; an error
of the file itself has no line, and no place is named.
-/

namespace LS8

variable {text path : String} {image : List UInt8} {error : LoadError}

/-! ### Images that come from a text -/

/-- **A parsed image fits in the memory.** -/
theorem length_le_of_parse (h : parseProgram text = .ok image) : image.length ≤ 256 := by
  obtain ⟨result, hmeans⟩ := exists_means (textTokens text.toList)
  rw [parse_of_means hmeans] at h
  subst h
  cases hmeans with
  | image hfits _ _ hspelled =>
    -- there are as many bytes as tokens
    have hlength := congrArg List.length hspelled
    rw [List.length_map, List.length_map] at hlength
    rw [hlength]
    exact hfits

/-- **Every machine takes a parsed image.** -/
theorem Machine.load_of_parse (m : Machine) (h : parseProgram text = .ok image) :
    m.load image = .ok { m with memory := .ofProgram image }.reset :=
  m.load_of_length_le (length_le_of_parse h)

/-! ### Errors that come from a text -/

/-- The reasons that a text can be refused for. The others are those of a file. -/
def LoadErrorKind.isOfText : LoadErrorKind → Bool
  | fileNotFound _ => false
  | unreadable .. => false
  | invalidLiteral _ => true
  | literalOverflow _ => true
  | machine _ => true

/-- **An error of a text has a place** and a reason of its own: a line of the text, in no file yet,
and something that is wrong with the text. -/
structure LoadError.OfText (text : String) (kind : LoadErrorKind) (line : Nat) : Prop where
  parse_eq : parseProgram text = .error (.atLine kind line)
  isOfText : kind.isOfText = true
  line_pos : 1 ≤ line
  line_le : line ≤ (textLines text.toList).length

/-- A malformed token is an error of the text, not of the file. -/
theorem Malformed.isOfText {token : List Char} {kind : LoadErrorKind} (h : Malformed token kind) :
    kind.isOfText = true := by
  cases h with
  | notBinary _ => rfl
  | tooWide _ _ _ => rfl
  | overflow _ _ => rfl

/-- So is every error of a parse. -/
theorem Means.isOfText {tokens : List SourceToken} (h : Means tokens (.error error)) :
    error.kind.isOfText = true := by
  cases h with
  | tooLong _ => rfl
  | malformed _ _ _ _ _ _ _ hwrong => exact hwrong.isOfText

/-- A text that does not parse has an error on one of its lines. -/
theorem exists_ofText (h : parseProgram text = .error error) :
    ∃ kind line, error = .atLine kind line ∧ LoadError.OfText text kind line := by
  obtain ⟨result, hmeans⟩ := exists_means (textTokens text.toList)
  have hresult := parse_of_means hmeans
  rw [h] at hresult
  subst hresult
  obtain ⟨kind, location⟩ := error
  obtain ⟨token, htoken, hlocation⟩ := hmeans.exists_token
  obtain rfl : location = some { file := none, line := token.line } := hlocation
  -- the token that is reported stands in a line of the text
  obtain ⟨hpos, line, hline, -⟩ := line_mem_textTokens htoken
  have hlt : token.line - 1 < (textLines text.toList).length :=
    (List.getElem?_eq_some_iff.mp hline).1
  exact ⟨kind, token.line, rfl, h, hmeans.isOfText, hpos, by omega⟩

/-! ### Files -/

theorem mapError_eq_error_iff {ε ε' α : Type} {f : ε → ε'} {x : Except ε α} {e : ε'} :
    x.mapError f = .error e ↔ ∃ cause, x = .error cause ∧ e = f cause := by
  cases x with
  | error cause =>
    constructor
    · intro h
      exact ⟨cause, rfl, (Except.error.inj h).symm⟩
    · rintro ⟨cause', h, rfl⟩
      obtain rfl := Except.error.inj h
      rfl
  | ok a =>
    constructor
    · intro h
      cases h
    · rintro ⟨cause, h, -⟩
      cases h

/-- A file with an image in it is a text, and the image is that of the text. -/
theorem exists_of_parseFile {path : String} {file : FileText} {image : List UInt8}
    (h : parseFile path file = .ok image) :
    ∃ content, file = .text content ∧ parseProgram content = .ok image := by
  cases file with
  | missing => cases h
  | unreadable reason => cases h
  | text content =>
    refine ⟨content, rfl, ?_⟩
    -- naming the file in an error does not touch an image
    change (parseProgram content).mapError _ = .ok image at h
    cases hparse : parseProgram content with
    | error wrong =>
      rw [hparse] at h
      cases h
    | ok parsed =>
      rw [hparse] at h
      obtain rfl := Except.ok.inj h
      rfl

/-- Reading a file fails, or parsing its text does. -/
theorem parseFile_eq_error_iff {path : String} {file : FileText} {error : LoadError} :
    parseFile path file = .error error ↔
      (file = .missing ∧ error = { kind := .fileNotFound path }) ∨
      (∃ reason, file = .unreadable reason ∧ error = { kind := .unreadable path reason }) ∨
      ∃ content wrong, file = .text content ∧ parseProgram content = .error wrong ∧
        error = wrong.inFile path := by
  constructor
  · intro h
    -- each kind of file has its own way to be refused
    cases file with
    | missing => exact .inl ⟨rfl, (Except.error.inj h).symm⟩
    | unreadable reason => exact .inr (.inl ⟨reason, rfl, (Except.error.inj h).symm⟩)
    | text content =>
      obtain ⟨wrong, hparse, herror⟩ := mapError_eq_error_iff.mp h
      exact .inr (.inr ⟨content, wrong, rfl, hparse, herror⟩)
  · rintro (⟨rfl, rfl⟩ | ⟨reason, rfl, rfl⟩ | ⟨content, wrong, rfl, hparse, rfl⟩)
    · rfl
    · rfl
    · exact mapError_eq_error_iff.mpr ⟨wrong, hparse, rfl⟩

/-- **What loading a program file comes to.** -/
inductive Machine.Loads (m : Machine) (path : String) : FileText → Except LoadError Machine → Prop
  | missing : m.Loads path .missing (.error { kind := .fileNotFound path, location := none })
  | unreadable (reason : String) :
      m.Loads path (.unreadable reason)
        (.error { kind := .unreadable path reason, location := none })
  | refused (content : String) (kind : LoadErrorKind) (line : Nat)
      (wrong : LoadError.OfText content kind line) :
      m.Loads path (.text content)
        (.error { kind, location := some { file := some path, line } })
  | loaded (content : String) (image : List UInt8) (m' : Machine)
      (parsed : parseProgram content = .ok image) (installed : m.load image = .ok m') :
      m.Loads path (.text content) (.ok m')

namespace Machine

variable {m : Machine} {file : FileText} {result : Except LoadError Machine}

/-- Loading a text parses it first, and asks the machine only for what came out of that. -/
theorem loadFile_text (m : Machine) (path content : String) :
    m.loadFile path (.text content) =
      ((parseProgram content).mapError (·.inFile path) >>= fun image =>
        (m.load image).mapError fun fault => { kind := .machine fault }) := rfl

/-- The error of a text gets the name of its file. -/
theorem loadFile_of_parse_error (m : Machine) (path : String) {content : String}
    (h : parseProgram content = .error error) :
    m.loadFile path (.text content) = .error (error.inFile path) := by
  rw [loadFile_text, h]
  rfl

/-- What parses is loaded: an image from a text fits every machine. -/
theorem loadFile_of_parse_ok (m : Machine) (path : String) {content : String}
    (h : parseProgram content = .ok image) :
    m.loadFile path (.text content) = .ok { m with memory := .ofProgram image }.reset := by
  rw [loadFile_text, h]
  change (m.load image).mapError _ = _
  rw [m.load_of_parse h]
  rfl

/-- `Machine.Loads` tells of every path and of every state of a file what loading it does. -/
theorem exists_loads (m : Machine) (path : String) (file : FileText) :
    ∃ result, m.Loads path file result := by
  cases file with
  | missing => exact ⟨_, .missing⟩
  | unreadable reason => exact ⟨_, .unreadable reason⟩
  | text content =>
    cases hparse : parseProgram content with
    | ok image => exact ⟨_, .loaded content image _ hparse (m.load_of_parse hparse)⟩
    | error error =>
      obtain ⟨kind, line, rfl, hwrong⟩ := exists_ofText hparse
      exact ⟨_, .refused content kind line hwrong⟩

/-- And what it tells is so. -/
theorem loadFile_of_loads (h : m.Loads path file result) : m.loadFile path file = result := by
  cases h with
  | missing => rfl
  | unreadable reason => rfl
  | refused content kind line hwrong => exact m.loadFile_of_parse_error path hwrong.parse_eq
  | loaded content image m' hparsed hinstalled =>
    rw [m.load_of_parse hparsed] at hinstalled
    rw [m.loadFile_of_parse_ok path hparsed, Except.ok.inj hinstalled]

/-- **Loading a file does exactly what `Machine.Loads` tells.** -/
theorem loadFile_eq_iff {path : String} :
    m.loadFile path file = result ↔ m.Loads path file result := by
  constructor
  · rintro rfl
    obtain ⟨result, hloads⟩ := m.exists_loads path file
    rw [loadFile_of_loads hloads]
    exact hloads
  · exact loadFile_of_loads

/-- **The two checks of the size of a program agree.** A parsed image is not too long for the
memory, and no machine refuses it. So a program file is loaded unless it is missing, unreadable or
wrong at one of its lines, and what is loaded is the image in it. -/
theorem capacities_agree :
    (∀ text image, parseProgram text = .ok image →
      image.length ≤ 256 ∧ ∀ m : Machine, ∃ m', m.load image = .ok m') ∧
    ∀ (m : Machine) (path : String) (file : FileText) (result : Except LoadError Machine),
      m.loadFile path file = result ↔ m.Loads path file result := by
  constructor
  · intro text image hparse
    exact ⟨length_le_of_parse hparse, fun m => ⟨_, m.load_of_parse hparse⟩⟩
  · intro m path file result
    exact loadFile_eq_iff

/-- A text with one byte in it goes into a machine that has halted, and a text that is wrong does not
go into any. -/
theorem capacities_agree_halted :
    parseProgram "1" = .ok [1] ∧
    (∃ m', ({ new with runState := .halted } : Machine).load [1] = .ok m') ∧
    new.Loads "two.ls8" (.text "1\ntwo")
      (.error { kind := .invalidLiteral "two", location := some ⟨some "two.ls8", 2⟩ }) := by
  have hparse : parseProgram "1" = .ok [1] := by decide +kernel
  obtain ⟨hfits, hloads⟩ := capacities_agree
  exact ⟨hparse, (hfits "1" [1] hparse).2 _, (hloads new _ _ _).mp (by decide +kernel)⟩

end Machine

end LS8
