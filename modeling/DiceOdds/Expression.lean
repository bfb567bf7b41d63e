import DiceOdds.Dice.Pool
import DiceOdds.Operation

/-!
Typed expressions. Both operands of a binary expression have the operand type of its operation, and
every change of type is a conversion that the types allow.
-/

namespace DiceOdds

inductive Expression where
  | constant (value : Value)
  | pool (pool : DicePool)
  | binary (left : Expression) (operation : Operation) (right : Expression)
  | bracketed (inner : Expression)
  | converted (source : Expression) (target : ValueType)

namespace Expression

/-- This is the type of every outcome. -/
def type : Expression → ValueType
  | .constant value => value.type
  | .pool _ => .integer
  | .binary _ operation _ => operation.result
  | .bracketed inner => inner.type
  | .converted _ target => target

/-- This function converts an expression to a type. -/
def convert? (expression : Expression) (target : ValueType) : Except Fault Expression := do
  expression.type.checkConversion target
  return .converted expression target

/-- An expression that has the type already stays as it is. -/
def coerce? (expression : Expression) (target : ValueType) : Except Fault Expression :=
  if expression.type == target then .ok expression else expression.convert? target

/-- Both operands are converted to their common type, the left one first. -/
def binary? (left : Expression) (operator : Operator) (right : Expression) :
    Except Fault Expression :=
  match Operation.find? operator left.type right.type with
  | none => .error (.undefinedOperator operator left.type right.type)
  | some operation => do
      let first ← left.coerce? operation.operand
      let second ← right.coerce? operation.operand
      return .binary first operation second

/-- The text of an expression is its source; conversions are shown when they are explained. -/
def textWith (explained : Bool) : Expression → String
  | .constant value => value.text
  | .pool dice => dice.text
  | .binary left operation right =>
      left.textWith explained ++ " " ++ operation.operator.text ++ " " ++ right.textWith explained
  | .bracketed inner => "(" ++ inner.textWith explained ++ ")"
  | .converted source target =>
      if explained then "(" ++ source.textWith explained ++ " " ++ target.conversionText ++ ")"
      else source.textWith explained

def text (expression : Expression) : String :=
  expression.textWith false

def explanation (expression : Expression) : String :=
  expression.textWith true

end Expression

end DiceOdds
