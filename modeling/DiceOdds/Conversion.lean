import DiceOdds.SparseVector

/-!
Implicit conversions. A symbol becomes the vector that is one in its own dimension, a vector moves
into a wider space, and every type converts to itself.
-/

namespace DiceOdds

namespace ValueType

/-- This relation says which types convert to which. -/
def convertsTo : ValueType → ValueType → Bool
  | .integer, .integer => true
  | .boolean, .boolean => true
  | .symbol source, .symbol target => source == target
  | .symbol source, .vector space =>
      match space.find? source with
      | some .integer => true
      | _ => false
  | .vector source, .vector target => target.covers source
  | _, _ => false

/-- A conversion is written after its operand. -/
def conversionText (target : ValueType) : String :=
  "as " ++ target.text

/-- A conversion between two types is refused before any value is seen. -/
def checkConversion (source target : ValueType) : Except Fault Unit :=
  if source.convertsTo target then .ok () else .error (.noConversion source target)

/-- Symbols and vectors live in a space; integers and booleans do not. -/
def space? : ValueType → Option Space
  | .symbol category => some (.unit category)
  | .vector space => some space
  | .integer | .boolean => none

/-- Both operands of an operator are converted to their common type. -/
def common? : ValueType → ValueType → Option ValueType
  | .integer, .integer => some .integer
  | .boolean, .boolean => some .boolean
  | first, second =>
      match first.space?, second.space? with
      | some left, some right => (left.join? right).toOption.map .vector
      | _, _ => none

end ValueType

namespace Value

/-- This function converts one value. -/
def convert? (value : Value) (target : ValueType) : Except Fault Value :=
  match value, target with
  | .integer _, .integer => .ok value
  | .boolean _, .boolean => .ok value
  | .symbol source, .symbol category =>
      if source == category then .ok value else .error (.noConversion value.type target)
  | .symbol source, .vector space =>
      if value.type.convertsTo target then (SparseVector.unit source).embed? space |>.map .vector
      else .error (.noConversion value.type target)
  | .vector tally, .vector space => (tally.embed? space).map .vector
  | _, _ => .error (.noConversion value.type target)

end Value

end DiceOdds
