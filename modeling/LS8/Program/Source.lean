import LS8.Memory
import LS8.Program.Literal
import LS8.Text.Blank
import LS8.Text.Cut

/-!
# Program texts

A program text has at most one token a line. A `#` starts a comment, blanks around a token are
ignored, and lines without a token take no address: each token is the byte at the next address. A
text with more tokens than the memory has cells is refused as a whole, at the first token too many;
otherwise the first malformed token is reported.
-/

namespace LS8

/-- A token of a program text with its place. -/
structure SourceToken where
  /-- The line of the token, counted from one. -/
  line : Nat
  /-- The token, without comment and blanks. -/
  text : List Char
  deriving DecidableEq

namespace SourceToken

/-- The part of a line in front of its comment, without blanks at its ends. -/
def code (line : List Char) : List Char :=
  trim (line.takeWhile (· != '#'))

/-- The tokens of consecutive lines, the first of which has the given number. -/
def ofLines : Nat → List (List Char) → List SourceToken
  | _, [] => []
  | number, line :: rest =>
    -- a line without a token is counted like any other
    if (code line).isEmpty then ofLines (number + 1) rest
    else { line := number, text := code line } :: ofLines (number + 1) rest

/-- The byte of a token, or what is wrong with it and where. -/
def byte (token : SourceToken) : Except LoadError UInt8 :=
  (literalByte token.text).mapError fun kind => .atLine kind token.line

end SourceToken

/-- The tokens of a program text, in order. -/
def sourceTokens (text : List Char) : List SourceToken :=
  SourceToken.ofLines 1 (lines text)

/-- The image that a program text describes. -/
def parseProgram (text : String) : Except LoadError (List UInt8) :=
  let tokens := sourceTokens text.toList
  -- the first token that does not fit is reported, whatever it and the others spell
  match tokens[Memory.capacity]? with
  | some token =>
    .error (.atLine (.machine (.programTooLarge tokens.length Memory.capacity)) token.line)
  | none => tokens.mapM SourceToken.byte

end LS8
