/-!
# Numerals of whole numbers

The grammar of the numbers in settings: blanks of any kind around, then an optional plus sign and
decimal digits that denote a number below `2 ^ 64`. `Numeral.read` reports the first digit position
that goes wrong: a character that is no digit, or the digit at which the number gets too large.
-/

namespace RunParams.Text

/-- The white space characters of Unicode. -/
def isWhite (c : Char) : Bool :=
  let n := c.toNat
  (0x9 ≤ n && n ≤ 0xD) || n == 0x20 || n == 0x85 || n == 0xA0 || n == 0x1680 ||
    (0x2000 ≤ n && n ≤ 0x200A) || n == 0x2028 || n == 0x2029 || n == 0x202F || n == 0x205F ||
    n == 0x3000

/-- Drops white space at the end. -/
def trimRight (s : List Char) : List Char := (s.reverse.dropWhile isWhite).reverse

/-- Drops white space at both ends. -/
def trim (s : List Char) : List Char := trimRight (s.dropWhile isWhite)

namespace Numeral

/-- Why a text is no numeral. -/
inductive Problem where
  | empty
  | invalidDigit
  | tooLarge
  deriving DecidableEq, Repr

/-- The wording of a problem. -/
def Problem.message : Problem → String
  | empty => "cannot parse integer from empty string"
  | invalidDigit => "invalid digit found in string"
  | tooLarge => "number too large to fit in target type"

/-- The value of a decimal digit. -/
def digit? (c : Char) : Option Nat :=
  if c.isDigit then some (c.toNat - '0'.toNat) else none

/-- Reads digits after those of `value`, with every number on the way below `limit`. -/
def readDigits (limit value : Nat) : List Char → Except Problem Nat
  | [] => .ok value
  | c :: rest =>
    match digit? c with
    | none => .error .invalidDigit
    | some d =>
      if 10 * value + d < limit then readDigits limit (10 * value + d) rest else .error .tooLarge

/-- Reads an optional plus sign and one or more digits. -/
def readUnsigned (limit : Nat) : List Char → Except Problem Nat
  | [] => .error .empty
  | ['+'] => .error .invalidDigit
  | '+' :: digits => readDigits limit 0 digits
  | digits => readDigits limit 0 digits

/-- Reads a numeral below `2 ^ 64` that white space may surround. -/
def read (text : String) : Except Problem Nat :=
  readUnsigned (Nat.pow 2 64) (trim text.toList)

end Numeral

end RunParams.Text
