import DiceOdds.Fault

/-!
Building spaces: from a list of dimensions and as the join of other spaces. A dimension that is
named twice must have the same type both times.
-/

namespace DiceOdds

namespace Space

def empty : Space :=
  ⟨[]⟩

/-- This function adds one dimension, unless the space has it with another type. -/
def extend? (space : Space) (dimension : Symbol) (type : ValueType) : Except Fault Space :=
  match space.find? dimension with
  | none => .ok ⟨dimension.put type space.dimensions⟩
  | some present =>
      if present == type then .ok space
      else .error (.conflictingDimension dimension present type)

/-- This function adds dimensions from first to last. -/
def extendAll? (space : Space) (dimensions : List (Symbol × ValueType)) : Except Fault Space :=
  dimensions.foldlM (fun current dimension => current.extend? dimension.1 dimension.2) space

def ofDimensions? (dimensions : List (Symbol × ValueType)) : Except Fault Space :=
  empty.extendAll? dimensions

/-- The join of two spaces has the dimensions of both. -/
def join? (first second : Space) : Except Fault Space :=
  first.extendAll? second.dimensions

/-- The join of a list has the dimensions of all its spaces. -/
def joinAll? : List Space → Except Fault Space
  | [] => .error (.nothingToFold .spaces)
  | first :: rest => rest.foldlM join? first

end Space

end DiceOdds
