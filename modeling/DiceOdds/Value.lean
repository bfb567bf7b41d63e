import DiceOdds.ValueType

/-!
The values of the language. A vector stores its nonzero components only, and every other dimension
of its space reads as zero. Values are compared by their types and then by their leaves, which are
the integers and booleans in the order of the dimensions.
-/

namespace DiceOdds

mutual

inductive Value where
  | integer (number : Int)
  | boolean (truth : Bool)
  | symbol (symbol : Symbol)
  | vector (vector : SparseVector)

/-- The stored components are in increasing order of names. -/
structure SparseVector where
  space : Space
  components : List (Symbol × Value)

end

namespace Value

def type : Value → ValueType
  | .integer _ => .integer
  | .boolean _ => .boolean
  | .symbol category => .symbol category
  | .vector tally => .vector tally.space

def tag (value : Value) : TypeTag :=
  value.type.tag

/-- A symbol is the only value of its type, so it counts as zero. -/
def isZero : Value → Bool
  | .integer number => number == 0
  | .boolean truth => !truth
  | .symbol _ => true
  | .vector tally => tally.components.isEmpty

mutual

/-- A false boolean counts as zero and a true one as one. -/
def leaves : Value → List Int
  | .integer number => [number]
  | .boolean truth => [if truth then 1 else 0]
  | .symbol _ => []
  | .vector ⟨space, components⟩ =>
      let stored := componentLeaves components
      space.dimensions.flatMap fun dimension =>
        (stored.lookup dimension.1).getD (List.replicate dimension.2.leafCount 0)

def componentLeaves : List (Symbol × Value) → List (Symbol × List Int)
  | [] => []
  | (dimension, value) :: rest => (dimension, leaves value) :: componentLeaves rest

end

/-- Leaves decide between values of one type. -/
def order (first second : Value) : Ordering :=
  (compare first.type second.type).then (compare first.leaves second.leaves)

instance : Ord Value where
  compare := order

/-- Two values are the same when no order tells them apart. -/
instance : BEq Value where
  beq first second := first.order second == .eq

mutual

/-- The text of a vector shows every dimension of its space. -/
def text : Value → String
  | .integer number => toString number
  | .boolean truth => toString truth
  | .symbol category => category.text
  | .vector ⟨space, components⟩ =>
      let stored := componentTexts components
      let shown := space.dimensions.map fun dimension =>
        dimension.1.text ++ ": " ++ (stored.lookup dimension.1).getD dimension.2.zeroText
      bracedText shown

def componentTexts : List (Symbol × Value) → List (Symbol × String)
  | [] => []
  | (dimension, value) :: rest => (dimension, text value) :: componentTexts rest

end

end Value

/-- The zero of a type is what an unset dimension reads as. -/
def ValueType.zero : ValueType → Value
  | .integer => .integer 0
  | .boolean => .boolean false
  | .symbol category => .symbol category
  | .vector space => .vector ⟨space, []⟩

end DiceOdds
