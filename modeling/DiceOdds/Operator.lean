import DiceOdds.Text.Quoted

/-!
The binary operators of the language, their notation and how tightly each binds.
-/

namespace DiceOdds

inductive Operator where
  | add
  | subtract
  | multiply
  | divide
  | less
  | greater
  | equal
  | and
  | or
  deriving DecidableEq

namespace Operator

/-- This list holds every operator. -/
def all : List Operator :=
  [.add, .subtract, .multiply, .divide, .less, .greater, .equal, .and, .or]

def text : Operator → String
  | .add => "+"
  | .subtract => "-"
  | .multiply => "*"
  | .divide => "/"
  | .less => "<"
  | .greater => ">"
  | .equal => "="
  | .and => "and"
  | .or => "or"

/-- This function finds the operator with the given notation. -/
def ofText? (text : String) : Option Operator :=
  all.find? fun operator => operator.text == text

/-- A text that is no notation is refused and shown in quotes. -/
def unknownMessage (text : String) : String :=
  "unknown operator " ++ quote text.toList

/-- Multiplication binds tightest, then addition, comparison, equality and the boolean operators. -/
def rank : Operator → Nat
  | .multiply | .divide => 4
  | .add | .subtract => 3
  | .less | .greater => 2
  | .equal => 1
  | .and | .or => 0

/-- Arithmetic operators yield their operand type; all others yield booleans. -/
def isArithmetic : Operator → Bool
  | .add | .subtract | .multiply | .divide => true
  | .less | .greater | .equal | .and | .or => false

end Operator

end DiceOdds
