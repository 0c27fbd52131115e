import LS8.Access
import LS8.LoadError

/-!
# Binary literals

A literal is a nonempty run of binary digits; leading zeros are allowed in any number. Its value has
to fit in a byte. A value that is too large is reported as a number as long as it can be an operand
value, and by its token beyond that. The number is read digit by digit in the range of operand
values, and reading gives up where it would leave that range.
-/

namespace LS8

/-- Whether a character is a binary digit. -/
def isBinaryDigit (c : Char) : Bool := c == '0' || c == '1'

/-- A number as an operand value, unless it is too large for one. -/
def checkedOperand? (value : Nat) : Option Nat :=
  if value < operandBound then some value else none

/-- The operand value read so far, with one more digit behind it: twice the value, and the value of
the digit added. Both results are checked. -/
def appendDigit? (value : Nat) (digit : Char) : Option Nat := do
  checkedOperand? ((← checkedOperand? (2 * value)) + (digit.toNat - '0'.toNat))

/-- The operand value that binary digits spell, read from the first digit on. -/
def operandValue? (digits : List Char) : Option Nat :=
  digits.foldlM appendDigit? 0

/-- The byte that a token spells in base two. -/
def literalByte (token : List Char) : Except LoadErrorKind UInt8 :=
  if token.isEmpty || !token.all isBinaryDigit then
    .error (.invalidLiteral (String.ofList token))
  else
    -- the digits are read into 32 bits first, and only then narrowed to a byte
    match operandValue? token with
    | some value => (byteOperand value).mapError .machine
    | none => .error (.literalOverflow (String.ofList token))

end LS8
