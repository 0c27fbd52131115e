import LS8.Proofs.Program.Loading

/-!
# What is said about a program that cannot be loaded

The diagnostic of a load error, in words. A file that does not exist and one that cannot be read are
named behind the word `error:`. A text is always wrong at one of its lines, and there the file and
the line stand in front: `program.ls8:4: error: …`. `LoadErrorKind.Worded` lists what follows, one
sentence for each of the four things that can be wrong with a text; which of them it is, and at which
line, is for the tokens of the text to decide (`Means`).

`Diagnoses` puts the three kinds of files together, and every file that cannot be loaded is diagnosed
as it says (`diagnoses_of_parseFile`).
-/

namespace LS8

/-- What is said about a text, by what is wrong with it. -/
inductive LoadErrorKind.Worded : LoadErrorKind → String → Prop
  | invalidLiteral (token : String) :
      Worded (.invalidLiteral token) ("invalid binary literal `" ++ token ++ "`")
  | literalOverflow (token : String) :
      Worded (.literalOverflow token) ("binary literal `" ++ token ++ "` does not fit in a byte")
  | invalidOperand (value : Nat) :
      Worded (.machine (.invalidOperand value))
        ("operand value " ++ toString value ++ " does not fit in a byte")
  | programTooLarge (length : Nat) :
      Worded (.machine (.programTooLarge length 256))
        ("program of " ++ toString length ++ " bytes exceeds memory capacity of 256 bytes")

/-- What is said about a program file that cannot be loaded. -/
inductive Diagnoses (program : String) : FileText → String → Prop
  | missing : Diagnoses program .missing ("error: file not found: " ++ program ++ "\n")
  | unreadable (reason : String) :
      Diagnoses program (.unreadable reason)
        ("error: failed to read " ++ program ++ ": " ++ reason ++ "\n")
  | refused (content : String) (kind : LoadErrorKind) (line : Nat) (words : String)
      (wrong : Means (textTokens content.toList) (.error (.atLine kind line)))
      (worded : kind.Worded words) :
      Diagnoses program (.text content)
        (program ++ ":" ++ toString line ++ ": error: " ++ words ++ "\n")

/-- The message of a malformed token is worded after the way in which it is malformed. -/
theorem Malformed.worded {token : List Char} {kind : LoadErrorKind} (h : Malformed token kind) :
    kind.Worded kind.message := by
  cases h with
  | notBinary _ => exact .invalidLiteral _
  | tooWide _ _ _ => exact .invalidOperand _
  | overflow _ _ => exact .literalOverflow _

/-- **Each error of a text has its sentence.** -/
theorem Means.worded {tokens : List SourceToken} {error : LoadError}
    (h : Means tokens (.error error)) : error.kind.Worded error.kind.message := by
  cases h with
  | tooLong _ =>
    -- the capacity is always the same, so its numeral is part of the sentence
    have hcapacity : " bytes exceeds memory capacity of " ++ (decimal 256 ++ " bytes") =
        " bytes exceeds memory capacity of 256 bytes" := by
      decide +kernel
    have hmessage : (Fault.programTooLarge tokens.length 256).message =
        "program of " ++ toString tokens.length ++ " bytes exceeds memory capacity of 256 bytes" := by
      rw [← hcapacity, ← String.append_assoc, ← String.append_assoc]
      rfl
    show LoadErrorKind.Worded _ (Fault.programTooLarge tokens.length 256).message
    rw [hmessage]
    exact .programTooLarge tokens.length
  | malformed _ _ _ _ _ _ _ wrong => exact wrong.worded

/-- **A file that cannot be loaded is diagnosed**, and the place is named if there is one. -/
theorem diagnoses_of_parseFile {program : String} {file : FileText} {error : LoadError}
    (h : parseFile program file = .error error) :
    Diagnoses program file (error.diagnostic ++ "\n") := by
  rcases parseFile_eq_error_iff.mp h with ⟨rfl, rfl⟩ | ⟨reason, rfl, rfl⟩ |
    ⟨content, wrong, rfl, hparse, rfl⟩
  · exact .missing
  · exact .unreadable reason
  · -- the error is tied to a line, and only the file is added
    obtain ⟨kind, line, rfl, -⟩ := exists_ofText hparse
    have hmeans := ((parseProgram_decides content).1 _).mp hparse
    exact .refused content kind line kind.message hmeans hmeans.worded

end LS8
