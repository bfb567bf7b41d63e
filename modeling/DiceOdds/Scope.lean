import DiceOdds.Expression

/-!
Scopes bind names to expressions. A newer binding of a name hides the older ones and leaves the
scope that it extends as it was.
-/

namespace DiceOdds

/-- The newest binding comes first. -/
structure Scope where
  bindings : List (String × Expression)

namespace Scope

def empty : Scope :=
  ⟨[]⟩

def isEmpty (scope : Scope) : Bool :=
  scope.bindings.isEmpty

def define (scope : Scope) (name : String) (expression : Expression) : Scope :=
  ⟨(name, expression) :: scope.bindings⟩

/-- The newest binding of a name counts. -/
def find? (scope : Scope) (name : String) : Option Expression :=
  scope.bindings.lookup name

/-- This function drops every later occurrence of a name. -/
def distinct : List String → List String
  | [] => []
  | name :: rest => name :: (distinct rest).filter fun other => other != name

/-- Every bound name is listed once, the newest first. -/
def names (scope : Scope) : List String :=
  distinct (scope.bindings.map Prod.fst)

end Scope

end DiceOdds
