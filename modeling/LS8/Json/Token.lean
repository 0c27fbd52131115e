import LS8.Json.Escape
import LS8.Json.Number

/-!
# JSON tokens

A JSON text is cut into tokens one character at a time. Between tokens only blanks may stand. A run
of letters, digits, signs and points is one word, which has to be a literal; a quoted text runs to
the first quote that no backslash precedes.
-/

namespace LS8

namespace Json

/-- The tokens of a JSON text. -/
inductive Token where
  | openArray
  | closeArray
  | openObject
  | closeObject
  | colon
  | comma
  | null
  | bool (value : Bool)
  | number (literal : List Char)
  /-- A quoted text, without its quotes. -/
  | string (body : List Char)
  deriving DecidableEq

/-- The blanks that may stand between tokens. -/
def isJsonBlank (c : Char) : Bool :=
  c == ' ' || c == '\n' || c == '\t' || c == '\r'

/-- The characters of which words consist. -/
def isWordChar (c : Char) : Bool :=
  c.isAlphanum || c == '+' || c == '-' || c == '.'

/-- The token that a single character is. -/
def mark? : Char → Option Token
  | '[' => some .openArray
  | ']' => some .closeArray
  | '{' => some .openObject
  | '}' => some .closeObject
  | ':' => some .colon
  | ',' => some .comma
  | _ => none

/-- The token that a word is. -/
def word? (word : List Char) : Option Token :=
  if word = ['n', 'u', 'l', 'l'] then some .null
  else if word = ['t', 'r', 'u', 'e'] then some (.bool true)
  else if word = ['f', 'a', 'l', 's', 'e'] then some (.bool false)
  else if isNumberLiteral word then some (.number word)
  else none

/-- What the scanner is in the middle of. The characters seen so far are kept in reverse. -/
inductive Pending where
  | nothing
  | word (seen : List Char)
  | quoted (seen : List Char)
  /-- In a quoted text, right behind a backslash. -/
  | escaped (seen : List Char)
  deriving DecidableEq

/-- The state of the scanner: the tokens found, in reverse, and what it is in the middle of. -/
structure Scanner where
  /-- The tokens found, the last one first. -/
  found : List Token := []
  /-- The token that is not complete yet. -/
  pending : Pending := .nothing
  deriving DecidableEq

namespace Scanner

/-- Takes a character that starts a token or stands between two. -/
def start (found : List Token) (c : Char) : Option Scanner :=
  if isJsonBlank c then some { found }
  else if c = '"' then some { found, pending := .quoted [] }
  else if isWordChar c then some { found, pending := .word [c] }
  else (mark? c).map fun token => { found := token :: found }

/-- Takes the next character. A word ends at the first character that cannot belong to it. -/
def step (scanner : Scanner) (c : Char) : Option Scanner :=
  match scanner.pending with
  | .nothing => start scanner.found c
  | .word seen =>
    if isWordChar c then some { scanner with pending := .word (c :: seen) }
    else (word? seen.reverse).bind fun token => start (token :: scanner.found) c
  | .quoted seen =>
    if c = '"' then
      -- escapes are checked when the text ends
      if wellFormedBody seen.reverse then some { found := .string seen.reverse :: scanner.found }
      else none
    else if c = '\\' then some { scanner with pending := .escaped (c :: seen) }
    -- control characters may not stand in a text, not even behind a backslash
    else if c.toNat < 0x20 then none
    else some { scanner with pending := .quoted (c :: seen) }
  | .escaped seen =>
    if c.toNat < 0x20 then none
    else some { scanner with pending := .quoted (c :: seen) }

/-- The tokens of a text that ends here. -/
def finish (scanner : Scanner) : Option (List Token) :=
  match scanner.pending with
  | .nothing => some scanner.found.reverse
  | .word seen => (word? seen.reverse).map fun token => (token :: scanner.found).reverse
  | .quoted _ => none
  | .escaped _ => none

end Scanner

/-- The tokens of a JSON text. -/
def scan (cs : List Char) : Option (List Token) :=
  (cs.foldlM Scanner.step {}).bind Scanner.finish

end Json

end LS8
