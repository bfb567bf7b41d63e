import DiceOdds.Operator
import DiceOdds.ValueType

/-!
The faults of calculation: arguments outside their domain, types that do not fit together, and
integers that leave their range.
-/

namespace DiceOdds

/-- These are the numbers of a dice pool that have a domain. -/
inductive PoolNumber where
  | diceCount
  | dieSides
  | keptDice
  deriving DecidableEq

namespace PoolNumber

def text : PoolNumber → String
  | .diceCount => "dice count"
  | .dieSides => "die sides"
  | .keptDice => "kept dice"

/-- This text describes the numbers in the domain. -/
def domainText : PoolNumber → String
  | .diceCount => "non-negative"
  | .dieSides => "at least 1"
  | .keptDice => "at least 1 and fewer than the dice count"

end PoolNumber

/-- These operations fold a list that must not be empty. -/
inductive Fold where
  | outcomes
  | spaces
  deriving DecidableEq

def Fold.text : Fold → String
  | .outcomes => "combine_all"
  | .spaces => "unify"

inductive Fault where
  | outsideDomain (number : PoolNumber) (found : Int)
  | conflictingDimension (dimension : Symbol) (first second : ValueType)
  | undefinedOperator (operator : Operator) (left right : ValueType)
  | noConversion (source target : ValueType)
  | unknownDimension (dimension : Symbol) (space : Space)
  | nothingToFold (fold : Fold)
  | divisionByZero (dividend : Int)
  | overflow (operator : Operator) (left right : Int)
  | mismatchedOperands (operator : Operator) (left right : ValueType)

namespace Fault

def message : Fault → String
  | .outsideDomain number found =>
      number.text ++ " must be " ++ number.domainText ++ ", found " ++ toString found
  | .conflictingDimension dimension first second =>
      "dimension " ++ dimension.text ++ " is " ++ first.text ++ " in one vector and " ++
        second.text ++ " in another"
  | .undefinedOperator operator left right =>
      "operator '" ++ operator.text ++ "' is not defined for " ++ left.text ++ " and " ++ right.text
  | .noConversion source target =>
      "cannot convert " ++ source.text ++ " to " ++ target.text
  | .unknownDimension dimension space =>
      dimension.text ++ " is not a dimension of " ++ space.text
  | .nothingToFold fold =>
      fold.text ++ " needs at least one input"
  | .divisionByZero dividend =>
      "cannot divide " ++ toString dividend ++ " by zero"
  | .overflow operator left right =>
      toString left ++ " " ++ operator.text ++ " " ++ toString right ++ " overflows"
  | .mismatchedOperands operator left right =>
      "internal error: operator '" ++ operator.text ++ "' dispatched on " ++ left.text ++ " and " ++
        right.text

end Fault

end DiceOdds
