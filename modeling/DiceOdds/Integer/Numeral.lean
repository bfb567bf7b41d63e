import DiceOdds.Integer.Range

/-!
Decimal numerals: an optional sign and at least one digit. The digits are read from the left, and
the first digit that leaves the range ends the reading.
-/

namespace DiceOdds

/-- A numeral is refused for one of four reasons. -/
inductive NumeralFault where
  | empty
  | invalidDigit
  | tooLarge
  | tooSmall
  deriving DecidableEq

namespace NumeralFault

def message : NumeralFault → String
  | .empty => "cannot parse integer from empty string"
  | .invalidDigit => "invalid digit found in string"
  | .tooLarge => "number too large to fit in target type"
  | .tooSmall => "number too small to fit in target type"

end NumeralFault

namespace Numeral

inductive Sign where
  | positive
  | negative
  deriving DecidableEq

/-- Each digit moves the value away from zero. -/
def Sign.append (sign : Sign) (value : Int) (digit : Nat) : Int :=
  match sign with
  | .positive => value * 10 + digit
  | .negative => value * 10 - digit

/-- This is the fault of a value that left the range on the side of its sign. -/
def Sign.fault : Sign → NumeralFault
  | .positive => .tooLarge
  | .negative => .tooSmall

def digitValue (digit : Char) : Nat :=
  digit.toNat - '0'.toNat

/-- This function continues a numeral whose digits so far have the given value. -/
def continueDigits (sign : Sign) (value : Int) : List Char → Except NumeralFault Int
  | [] => .ok value
  | character :: rest =>
      if character.isDigit then
        let next := sign.append value (digitValue character)
        if Representable next then continueDigits sign next rest else .error sign.fault
      else .error .invalidDigit

/-- A sign alone has no digit, and no text at all is no numeral. -/
def read : List Char → Except NumeralFault Int
  | [] => .error .empty
  | ['+'] => .error .invalidDigit
  | ['-'] => .error .invalidDigit
  | '+' :: digits => continueDigits .positive 0 digits
  | '-' :: digits => continueDigits .negative 0 digits
  | digits => continueDigits .positive 0 digits

end Numeral

end DiceOdds
