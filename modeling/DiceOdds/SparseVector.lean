import DiceOdds.Space
import DiceOdds.Value

/-!
Operations on vectors. Each keeps the stored components nonzero and of the types that the space
gives to their dimensions.
-/

namespace DiceOdds

namespace SparseVector

def zero (space : Space) : SparseVector :=
  ⟨space, []⟩

/-- The unit vector of a symbol is one in the dimension of the symbol. -/
def unit (symbol : Symbol) : SparseVector :=
  ⟨Space.unit symbol, [(symbol, .integer 1)]⟩

def isZero (vector : SparseVector) : Bool :=
  vector.components.isEmpty

/-- This function stores one component, or forgets it when it is zero. -/
def set? (vector : SparseVector) (dimension : Symbol) (value : Value) :
    Except Fault SparseVector :=
  match vector.space.find? dimension with
  | none => .error (.unknownDimension dimension vector.space)
  | some type =>
      if type == value.type then
        if value.isZero then .ok { vector with components := dimension.drop vector.components }
        else .ok { vector with components := dimension.put value vector.components }
      else .error (.conflictingDimension dimension type value.type)

/-- Of two components in one dimension the later one counts. -/
def ofComponents? (space : Space) (components : List (Symbol × Value)) :
    Except Fault SparseVector :=
  components.foldlM (fun vector component => vector.set? component.1 component.2) (zero space)

/-- This function reads one dimension, if the space has it. -/
def component? (vector : SparseVector) (dimension : Symbol) : Option Value :=
  (vector.space.find? dimension).map fun type =>
    (vector.components.lookup dimension).getD type.zero

/-- The reading of a vector lists every dimension of its space, zeros included. -/
def reading (vector : SparseVector) : List (Symbol × Value) :=
  vector.space.dimensions.map fun dimension =>
    (dimension.1, (vector.components.lookup dimension.1).getD dimension.2.zero)

/-- The same components are read in a wider space. -/
def embed? (vector : SparseVector) (target : Space) : Except Fault SparseVector :=
  if target.covers vector.space then .ok { vector with space := target }
  else .error (.noConversion (.vector vector.space) (.vector target))

end SparseVector

end DiceOdds
