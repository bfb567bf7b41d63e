import DiceOdds.Failure
import DiceOdds.Scope

/-!
Typed expressions from conditions. Names are replaced by what they are bound to, dice are held
against the limits, and every operator is settled for the types of its operands.
-/

namespace DiceOdds

/-- A name that stands for a binary expression keeps it together with brackets. -/
def Expression.enclosed : Expression → Expression
  | .binary left operation right => .bracketed (.binary left operation right)
  | other => other

namespace Literal

def value : Literal → Value
  | .integer number => .integer number
  | .boolean truth => .boolean truth

end Literal

/-- This function finds the first dimension that was named before. -/
def repeatedDimension? : (seen : List Symbol) → List Symbol → Option Symbol
  | _, [] => none
  | seen, dimension :: rest =>
      if seen.contains dimension then some dimension
      else repeatedDimension? (dimension :: seen) rest

/-- A vector literal names each dimension once and gives it the type of its component. -/
def vectorLiteral (components : List (Symbol × Literal)) : Except Failure Expression := do
  match repeatedDimension? [] (components.map Prod.fst) with
  | some dimension => throw (.repeatedDimension dimension)
  | none => pure ()
  let values := components.map fun component => (component.1, component.2.value)
  let vector ← Except.mapError Failure.calculation do
    let space ← Space.ofDimensions? (values.map fun component => (component.1, component.2.type))
    SparseVector.ofComponents? space values
  return .constant (.vector vector)

/-- The numbers of a pool need not lie in their domain here. -/
def poolLiteral (limits : Limits) (pool : DicePool) : Except Failure Expression := do
  Except.mapError Failure.limit <| match pool.kept with
    | none => limits.checkPool pool.count pool.sides
    | some _ => limits.checkKeptPool pool.count pool.sides
  return .pool pool

mutual

/-- This function gives a type to an atom. -/
def Atom.typed (scope : Scope) (limits : Limits) : Atom → Except Failure Expression
  | .integer number => .ok (.constant (.integer number))
  | .boolean truth => .ok (.constant (.boolean truth))
  | .symbol category => .ok (.constant (.symbol category))
  | .dice pool => poolLiteral limits pool
  | .vector first others => vectorLiteral (first :: others)
  | .name bound =>
      match scope.find? bound with
      | some expression => .ok expression.enclosed
      | none => .error (.undefinedName bound)
  | .group condition => do
      let inner ← typedCondition scope limits condition
      return .bracketed inner

/-- Operands come before their operator. -/
def typedTerm (scope : Scope) (limits : Limits) : OperatorTree Atom → Except Failure Expression
  | .leaf atom => Atom.typed scope limits atom
  | .node left operator right => do
      let first ← typedTerm scope limits left
      let second ← typedTerm scope limits right
      (first.binary? operator second).mapError .calculation

def typedCondition (scope : Scope) (limits : Limits) :
    OperatorTree (OperatorTree Atom) → Except Failure Expression
  | .leaf term => typedTerm scope limits term
  | .node left operator right => do
      let first ← typedCondition scope limits left
      let second ← typedCondition scope limits right
      (first.binary? operator second).mapError .calculation

end

/-- This function gives a type to a condition. -/
def Condition.typed (scope : Scope) (limits : Limits) (condition : Condition) :
    Except Failure Expression :=
  typedCondition scope limits condition

end DiceOdds
