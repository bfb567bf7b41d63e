import DiceOdds.Operator

/-!
Trees of binary operators over leaves of any kind. A chain of operators is first read as a tree
that nests to the right. Turning it to the left wherever the outer operator binds at least as
tightly as the inner one gives every operator its precedence and associates equal ones to the left.
The operators are those of the language, unless others are given.
-/

namespace DiceOdds

inductive OperatorTree (A : Type) (O : Type := Operator) where
  | leaf (value : A)
  | node (left : OperatorTree A O) (operator : O) (right : OperatorTree A O)

namespace OperatorTree

variable {A O : Type}

/-- One turn moves the operator of the right child to the root. -/
def turn? (rank : O → Nat) : OperatorTree A O → Option (OperatorTree A O)
  | .node left outer (.node middle inner right) =>
      if rank inner ≤ rank outer then some (.node (.node left outer middle) inner right) else none
  | _ => none

/-- This function joins two settled trees; the left one grows along the spine of the right one. -/
def attach (rank : O → Nat) (left : OperatorTree A O) (operator : O) :
    OperatorTree A O → OperatorTree A O
  | .leaf value => .node left operator (.leaf value)
  | .node middle inner right =>
      if rank inner ≤ rank operator then
        attach rank (attach rank left operator middle) inner right
      else .node left operator (.node middle inner right)

/-- A settled tree has no node that can be turned. -/
def settle (rank : O → Nat) : OperatorTree A O → OperatorTree A O
  | .leaf value => .leaf value
  | .node left operator right => attach rank (settle rank left) operator (settle rank right)

/-- This function nests a chain to the right. -/
def rightNested (first : A) : List (O × A) → OperatorTree A O
  | [] => .leaf first
  | (operator, second) :: rest => .node (.leaf first) operator (rightNested second rest)

/-- This function gives a chain its precedence. -/
def ofChain (rank : O → Nat) (first : A) (rest : List (O × A)) : OperatorTree A O :=
  settle rank (rightNested first rest)

end OperatorTree

end DiceOdds
