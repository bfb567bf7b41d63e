import DiceOdds.Limits
import DiceOdds.Operation
import DiceOdds.Statement.Source

/-!
The failures of a statement: its text, its names, its vector literals, its dice, or the calculation
itself.
-/

namespace DiceOdds

inductive Failure where
  | source (error : SourceError)
  | calculation (fault : Fault)
  | undefinedName (name : String)
  | repeatedDimension (dimension : Symbol)
  | limit (excess : Excess)

namespace Failure

def message : Failure → String
  | .source error => error.message
  | .calculation fault => fault.message
  | .undefinedName name => "$" ++ name ++ " is not defined"
  | .repeatedDimension dimension =>
      "dimension " ++ dimension.text ++ " appears twice in a vector literal"
  | .limit excess => excess.message

end Failure

end DiceOdds
