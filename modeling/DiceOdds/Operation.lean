import DiceOdds.Conversion
import DiceOdds.Integer.Range

/-!
Operations: which operators exist for which types, and what they compute. Integer results are exact
or refused, and vectors are added and subtracted dimension by dimension.
-/

namespace DiceOdds

namespace Operator

/-- These are the operators that exist for operands of each form. -/
def isDefinedOn : Operator → TypeTag → Bool
  | .add, .integer | .subtract, .integer | .multiply, .integer | .divide, .integer => true
  | .add, .vector | .subtract, .vector => true
  | .less, .integer | .greater, .integer => true
  | .equal, _ => true
  | .and, .boolean | .or, .boolean => true
  | _, _ => false

mutual

/-- Vector arithmetic needs the operator on every dimension as well. -/
def supports (operator : Operator) : ValueType → Bool
  | .vector ⟨dimensions⟩ =>
      operator.isDefinedOn .vector &&
        (!operator.isArithmetic || supportsAll operator dimensions)
  | type => operator.isDefinedOn type.tag

def supportsAll (operator : Operator) : List (Symbol × ValueType) → Bool
  | [] => true
  | (_, type) :: rest => supports operator type && supportsAll operator rest

end

/-- This is the exact result of an arithmetic operator; quotients are truncated toward zero. -/
def exactResult? (operator : Operator) (left right : Int) : Option Int :=
  match operator with
  | .add => some (left + right)
  | .subtract => some (left - right)
  | .multiply => some (left * right)
  | .divide => some (left.tdiv right)
  | _ => none

/-- An integer result is exact, or the operands are at fault. -/
def computeInteger (operator : Operator) (left right : Int) : Except Fault Value :=
  if operator == .divide && right == 0 then .error (.divisionByZero left)
  else
    match operator.exactResult? left right with
    | none => .error (.mismatchedOperands operator .integer .integer)
    | some result =>
        match representable? result with
        | some number => .ok (.integer number)
        | none => .error (.overflow operator left right)

mutual

/-- Arithmetic follows the type of the operands down to their integers. -/
def computeArithmetic (operator : Operator) :
    ValueType → Value → Value → Except Fault Value
  | .integer, .integer left, .integer right => operator.computeInteger left right
  | .vector ⟨dimensions⟩, .vector left, .vector right =>
      if operator.isDefinedOn .vector && left.space == right.space then do
        let components ← computeDimensions operator dimensions left.reading right.reading
        return .vector (← SparseVector.ofComponents? left.space components)
      else .error (.mismatchedOperands operator (.vector left.space) (.vector right.space))
  | _, left, right => .error (.mismatchedOperands operator left.type right.type)

/-- The first dimension at fault decides. -/
def computeDimensions (operator : Operator) :
    List (Symbol × ValueType) → List (Symbol × Value) → List (Symbol × Value) →
      Except Fault (List (Symbol × Value))
  | (_, type) :: types, (dimension, left) :: lefts, (_, right) :: rights => do
      let value ← computeArithmetic operator type left right
      let values ← computeDimensions operator types lefts rights
      return (dimension, value) :: values
  | _, _, _ => .ok []

end

/-- This function applies an operator to two values of one type. -/
def compute (operator : Operator) (left right : Value) : Except Fault Value :=
  let mismatch := .error (.mismatchedOperands operator left.type right.type)
  match operator with
  | .add | .subtract | .multiply | .divide =>
      operator.computeArithmetic left.type left right
  | .less =>
      match left, right with
      | .integer first, .integer second => .ok (.boolean (first < second))
      | _, _ => mismatch
  | .greater =>
      match left, right with
      | .integer first, .integer second => .ok (.boolean (second < first))
      | _, _ => mismatch
  | .equal =>
      if left.type == right.type then .ok (.boolean (left == right)) else mismatch
  | .and =>
      match left, right with
      | .boolean first, .boolean second => .ok (.boolean (first && second))
      | _, _ => mismatch
  | .or =>
      match left, right with
      | .boolean first, .boolean second => .ok (.boolean (first || second))
      | _, _ => mismatch

end Operator

/-- An operation is an operator whose operand and result types are settled. -/
structure Operation where
  operator : Operator
  operand : ValueType
  result : ValueType

namespace Operation

/-- This function settles an operator for operands of the given types. -/
def find? (operator : Operator) (left right : ValueType) : Option Operation :=
  match left.common? right with
  | none => none
  | some operand =>
      if operator.supports operand then
        some ⟨operator, operand, if operator.isArithmetic then operand else .boolean⟩
      else none

def text (operation : Operation) : String :=
  "(" ++ operation.operand.text ++ ") " ++ operation.operator.text ++ " (" ++
    operation.operand.text ++ ") -> " ++ operation.result.text

def compute (operation : Operation) (left right : Value) : Except Fault Value :=
  operation.operator.compute left right

end Operation

end DiceOdds
