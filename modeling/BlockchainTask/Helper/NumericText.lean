import BlockchainTask.Helper.Decimals

/-! # Numeric texts

The texts that the `IsNumberString` validator accepts, an optional sign and
digits with at most one point, which a digit follows, and the number that the
big-number library reads from one. -/
namespace BlockchainTask.Helper.NumericText
open BlockchainTask.Library.Decimal BlockchainTask.Helper.Decimals

/-- A text without its sign. -/
def unsigned (text : List Char) : List Char :=
  match text with
  | c :: rest => if c = '+' ∨ c = '-' then rest else text
  | [] => []

def wholeDigits (text : List Char) : List Char := (unsigned text).takeWhile Char.isDigit

/-- The point and what follows it. -/
def fractionPart (text : List Char) : List Char := (unsigned text).dropWhile Char.isDigit

/-- `^[+-]?([0-9]*[.])?[0-9]+$`. -/
def isNumeric (text : List Char) : Bool :=
  match fractionPart text with
  | [] => !(wholeDigits text).isEmpty
  | c :: fraction => c == '.' && !fraction.isEmpty && fraction.all Char.isDigit

structure NumberString where
  text : String
  numeric : isNumeric text.toList = true
  deriving DecidableEq

/-- The number that digits are read as. -/
def ofDigits (digits : List Char) : ℕ := digits.foldl (fun n c => 10 * n + (c.toNat - '0'.toNat)) 0

def isNegative (text : List Char) : Bool := text.head? == some '-'

/-- The absolute value of a numeric text. -/
def magnitude (text : List Char) : ℚ :=
  let fraction := (fractionPart text).tail
  ofDigits (wholeDigits text) + ofDigits fraction / 10 ^ fraction.length

/-- `new BigNumber(text)`. -/
def NumberString.value (number : NumberString) : ℚ :=
  let text := number.text.toList
  if isNegative text then -magnitude text else magnitude text

end BlockchainTask.Helper.NumericText
