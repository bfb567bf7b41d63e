import DiceOdds.Symbol
import DiceOdds.Text.Braced

/-!
The types of the language: integers, booleans, one type for each symbol, and vectors over a space of
named dimensions. Types are compared by the names of their symbols, never by the marks.
-/

namespace DiceOdds

mutual

/-- Every symbol is a type of its own with exactly one inhabitant. -/
inductive ValueType where
  | integer
  | boolean
  | symbol (symbol : Symbol)
  | vector (space : Space)

/-- A space is a set of orthogonal dimensions in increasing order of names, each with a type. -/
structure Space where
  dimensions : List (Symbol × ValueType)

end

/-- A tag is the outermost form of a type. -/
inductive TypeTag where
  | integer
  | boolean
  | symbol
  | vector
  deriving DecidableEq

namespace ValueType

def tag : ValueType → TypeTag
  | .integer => .integer
  | .boolean => .boolean
  | .symbol _ => .symbol
  | .vector _ => .vector

mutual

/-- Integers come first, then booleans, symbols by name, and vectors by their dimensions. -/
def order : ValueType → ValueType → Ordering
  | .integer, .integer => .eq
  | .integer, _ => .lt
  | .boolean, .integer => .gt
  | .boolean, .boolean => .eq
  | .boolean, _ => .lt
  | .symbol first, .symbol second => compare first second
  | .symbol _, .vector _ => .lt
  | .symbol _, _ => .gt
  | .vector ⟨first⟩, .vector ⟨second⟩ => orderDimensions first second
  | .vector _, _ => .gt

/-- Dimensions are compared in turn, by name and then by type. -/
def orderDimensions : List (Symbol × ValueType) → List (Symbol × ValueType) → Ordering
  | [], [] => .eq
  | [], _ :: _ => .lt
  | _ :: _, [] => .gt
  | (first, firstType) :: firstRest, (second, secondType) :: secondRest =>
      (compare first second).then
        ((order firstType secondType).then (orderDimensions firstRest secondRest))

end

instance : Ord ValueType where
  compare := order

/-- Two types are the same when they differ in marks at most. -/
instance : BEq ValueType where
  beq first second := first.order second == .eq

mutual

def text : ValueType → String
  | .integer => "int"
  | .boolean => "bool"
  | .symbol category => category.text
  | .vector ⟨dimensions⟩ => bracedText (dimensionTexts dimensions)

def dimensionTexts : List (Symbol × ValueType) → List String
  | [] => []
  | (dimension, type) :: rest => (dimension.text ++ ": " ++ text type) :: dimensionTexts rest

end

mutual

/-- This is the number of integers and booleans in a value of the type. -/
def leafCount : ValueType → Nat
  | .integer => 1
  | .boolean => 1
  | .symbol _ => 0
  | .vector ⟨dimensions⟩ => dimensionLeafCount dimensions

def dimensionLeafCount : List (Symbol × ValueType) → Nat
  | [] => 0
  | (_, type) :: rest => leafCount type + dimensionLeafCount rest

end

mutual

/-- This is the text of the zero of the type. -/
def zeroText : ValueType → String
  | .integer => "0"
  | .boolean => "false"
  | .symbol category => category.text
  | .vector ⟨dimensions⟩ => bracedText (dimensionZeroTexts dimensions)

def dimensionZeroTexts : List (Symbol × ValueType) → List String
  | [] => []
  | (dimension, type) :: rest =>
      (dimension.text ++ ": " ++ zeroText type) :: dimensionZeroTexts rest

end

end ValueType

namespace Space

instance : BEq Space where
  beq first second := ValueType.orderDimensions first.dimensions second.dimensions == .eq

def text (space : Space) : String :=
  (ValueType.vector space).text

/-- This is the type of a dimension, if the space has it. -/
def find? (space : Space) (symbol : Symbol) : Option ValueType :=
  space.dimensions.lookup symbol

/-- The space of one integer dimension holds the multiples of its symbol. -/
def unit (symbol : Symbol) : Space :=
  ⟨[(symbol, .integer)]⟩

/-- A space covers another one whose dimensions it all has, with the same types. -/
def covers (wide narrow : Space) : Bool :=
  narrow.dimensions.all fun dimension =>
    match wide.find? dimension.1 with
    | some type => type == dimension.2
    | none => false

end Space

end DiceOdds
