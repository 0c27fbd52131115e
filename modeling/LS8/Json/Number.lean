/-!
# JSON numbers

The grammar of number literals: an optional minus sign, an integer without leading zeros, and
optionally a fraction and an exponent. Each part is skipped from the front of the literal; what is
a literal leaves nothing behind.
-/

namespace LS8

namespace Json

/-- Skips one or more digits. -/
def skipDigits : List Char → Option (List Char)
  | c :: rest => if c.isDigit then some (rest.dropWhile Char.isDigit) else none
  | [] => none

/-- Skips a minus sign, if there is one. -/
def skipMinus : List Char → List Char
  | '-' :: rest => rest
  | cs => cs

/-- Skips an integer without leading zeros. -/
def skipInteger : List Char → Option (List Char)
  -- behind a zero no further digit belongs to the integer
  | '0' :: rest => some rest
  | cs => skipDigits cs

/-- Skips a fraction, if there is one. -/
def skipFraction : List Char → Option (List Char)
  | '.' :: rest => skipDigits rest
  | cs => some cs

/-- Skips the sign of an exponent, if there is one. -/
def skipSign : List Char → List Char
  | '+' :: rest => rest
  | '-' :: rest => rest
  | cs => cs

/-- Skips an exponent, if there is one. -/
def skipExponent : List Char → Option (List Char)
  | 'e' :: rest => skipDigits (skipSign rest)
  | 'E' :: rest => skipDigits (skipSign rest)
  | cs => some cs

/-- Whether a text is a number literal. -/
def isNumberLiteral (cs : List Char) : Bool :=
  ((skipInteger (skipMinus cs)).bind skipFraction).bind skipExponent == some []

end Json

end LS8
