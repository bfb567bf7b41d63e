import DiceOdds.Expression.Evaluation
import DiceOdds.Proofs.Agreement
import DiceOdds.Statement.Typing

/-
This file shows that a definition can be substituted. A name and the group of what defines it make
expressions that differ in brackets only, and brackets change neither types nor evaluation.
-/

namespace DiceOdds

section Substitution

variable (name : String) (replacement : Condition)

mutual

/-- This function puts a condition as a group in the place of a name. -/
def Atom.substitute : Atom → Atom
  | .integer number => .integer number
  | .boolean truth => .boolean truth
  | .symbol category => .symbol category
  | .dice pool => .dice pool
  | .vector first others => .vector first others
  | .name bound => if bound = name then .group replacement else .name bound
  | .group condition => .group (substituteCondition condition)

def substituteTerm : OperatorTree Atom → OperatorTree Atom
  | .leaf atom => .leaf (Atom.substitute atom)
  | .node left operator right => .node (substituteTerm left) operator (substituteTerm right)

def substituteCondition : OperatorTree (OperatorTree Atom) → OperatorTree (OperatorTree Atom)
  | .leaf term => .leaf (substituteTerm term)
  | .node left operator right =>
      .node (substituteCondition left) operator (substituteCondition right)

end

end Substitution

/-- Every occurrence of the name is replaced, inside of groups as well. -/
def Condition.substitute (condition : Condition) (name : String) (replacement : Condition) :
    Condition :=
  substituteCondition name replacement condition

namespace Expression

/-- This function takes all brackets away. -/
def unbracketed : Expression → Expression
  | .constant value => .constant value
  | .pool dice => .pool dice
  | .binary left operation right => .binary left.unbracketed operation right.unbracketed
  | .bracketed inner => inner.unbracketed
  | .converted source target => .converted source.unbracketed target

@[simp] theorem unbracketed_type (expression : Expression) :
    expression.unbracketed.type = expression.type := by
  induction expression with
  | bracketed inner known => exact known
  | _ => rfl

@[simp] theorem unbracketed_evaluate (expression : Expression) :
    expression.unbracketed.evaluate = expression.evaluate := by
  induction expression with
  | constant | pool => rfl
  | binary left operation right ofLeft ofRight =>
      rw [unbracketed, evaluate, evaluate, ofLeft, ofRight]
  | bracketed inner known => exact known
  | converted source target known => rw [unbracketed, evaluate, evaluate, known]

/-- Two expressions are alike when they differ in brackets only. -/
def Alike (first second : Expression) : Prop :=
  first.unbracketed = second.unbracketed

namespace Alike

variable {first second : Expression}

theorem refl (expression : Expression) : expression.Alike expression :=
  rfl

theorem type_eq (alike : first.Alike second) : first.type = second.type := by
  rw [← unbracketed_type first, alike, unbracketed_type]

theorem evaluate_eq (alike : first.Alike second) : first.evaluate = second.evaluate := by
  rw [← unbracketed_evaluate first, alike, unbracketed_evaluate]

/-- What stands in the place of a name is like the group of its definition. -/
theorem enclosed_bracketed (expression : Expression) :
    expression.enclosed.Alike (.bracketed expression) := by
  cases expression <;> rfl

theorem coerce? (alike : first.Alike second) (target : ValueType) :
    Agree Eq Alike (first.coerce? target) (second.coerce? target) := by
  unfold Expression.coerce? Expression.convert?
  rw [alike.type_eq]
  split
  · exact .ok alike
  · cases second.type.checkConversion target with
    | error fault => exact .error rfl
    | ok => exact .ok (congrArg (converted · target) alike)

/-- Operands that are alike make alike binary expressions, or the same fault. -/
theorem binary? {left right : Expression} (alike : first.Alike second) (operator : Operator)
    (also : left.Alike right) :
    Agree Eq Alike (first.binary? operator left) (second.binary? operator right) := by
  unfold Expression.binary?
  rw [alike.type_eq, also.type_eq]
  split
  · exact .error rfl
  · next operation _ =>
      refine (alike.coerce? operation.operand).bind fun one other same => ?_
      refine (also.coerce? operation.operand).bind fun next last equal => ?_
      refine .ok ?_
      rw [Alike, unbracketed, unbracketed, same, equal]

end Alike

end Expression

theorem Scope.find?_define (scope : Scope) (name bound : String) (expression : Expression) :
    (scope.define name expression).find? bound =
      if bound = name then some expression else scope.find? bound := by
  rw [define, find?, List.lookup_cons]
  by_cases same : bound = name
  · simp [same]
  · rw [if_neg same, beq_eq_false_iff_ne.2 same]
    rfl

section Typing

variable {scope : Scope} {limits : Limits} {name : String} {replacement : Condition}
  {expression : Expression}

mutual

theorem Atom.typed_substitute (accepted : replacement.typed scope limits = .ok expression)
    (atom : Atom) :
    Agree Eq Expression.Alike (atom.typed (scope.define name expression) limits)
      ((atom.substitute name replacement).typed scope limits) := by
  cases atom with
  | name bound =>
      rw [Atom.substitute, Atom.typed, Scope.find?_define]
      by_cases same : bound = name
      · rw [if_pos same, if_pos same, Atom.typed]
        change Agree _ _ _ (replacement.typed scope limits >>= _)
        rw [accepted]
        exact .ok (.enclosed_bracketed expression)
      · rw [if_neg same, if_neg same, Atom.typed]
        exact .refl Expression.Alike.refl _
  | group condition =>
      rw [Atom.substitute, Atom.typed, Atom.typed]
      exact (typedCondition_substitute accepted condition).bind fun first second alike => .ok alike
  | _ => exact .refl Expression.Alike.refl _

theorem typedTerm_substitute (accepted : replacement.typed scope limits = .ok expression)
    (term : OperatorTree Atom) :
    Agree Eq Expression.Alike (typedTerm (scope.define name expression) limits term)
      (typedTerm scope limits (substituteTerm name replacement term)) := by
  cases term with
  | leaf atom => exact Atom.typed_substitute accepted atom
  | node left operator right =>
      rw [substituteTerm, typedTerm, typedTerm]
      refine (typedTerm_substitute accepted left).bind fun first second alike => ?_
      refine (typedTerm_substitute accepted right).bind fun next last also => ?_
      exact (alike.binary? operator also).mapError _

/-- Both conditions are typed to expressions that are alike, or fail in the same way. -/
theorem typedCondition_substitute (accepted : replacement.typed scope limits = .ok expression)
    (condition : OperatorTree (OperatorTree Atom)) :
    Agree Eq Expression.Alike (typedCondition (scope.define name expression) limits condition)
      (typedCondition scope limits (substituteCondition name replacement condition)) := by
  cases condition with
  | leaf term => exact typedTerm_substitute accepted term
  | node left operator right =>
      rw [substituteCondition, typedCondition, typedCondition]
      refine (typedCondition_substitute accepted left).bind fun first second alike => ?_
      refine (typedCondition_substitute accepted right).bind fun next last also => ?_
      exact (alike.binary? operator also).mapError _

end

end Typing

namespace Condition

/-- A condition under a definition means what it means without it once the name is replaced by the
group of its definition. Both have the same type and the same outcomes, or the same failure. -/
theorem typed_define {scope : Scope} {limits : Limits} {name : String} {replacement : Condition}
    {expression : Expression} (accepted : replacement.typed scope limits = .ok expression)
    (condition : Condition) :
    Agree Eq (fun first second => first.type = second.type ∧ first.evaluate = second.evaluate)
      (condition.typed (scope.define name expression) limits)
      ((condition.substitute name replacement).typed scope limits) := by
  refine (typedCondition_substitute accepted condition).imp (fun _ _ same => same) ?_
  intro first second alike
  exact ⟨alike.type_eq, alike.evaluate_eq⟩

/-- A name that a sum defines anew stands for this sum as a group, on both sides of a product. -/
theorem typed_define_sum :
    let one : Expression := .constant (.integer 1)
    let scope : Scope := Scope.empty.define "x" one
    let sum : Condition := .leaf (.node (.leaf (.name "x")) .add (.leaf (.integer 2)))
    let three : Expression :=
      .binary one ⟨.add, .integer, .integer⟩ (.constant (.integer 2))
    let square : Condition := .leaf (.node (.leaf (.name "x")) .multiply (.leaf (.name "x")))
    sum.typed scope .standard = .ok three ∧
      square.substitute "x" sum =
        .leaf (.node (.leaf (.group sum)) .multiply (.leaf (.group sum))) ∧
      Agree Eq (fun first second => first.type = second.type ∧ first.evaluate = second.evaluate)
        (square.typed (scope.define "x" three) .standard)
        ((square.substitute "x" sum).typed scope .standard) := by
  intro one scope sum three square
  have accepted : sum.typed scope .standard = .ok three := rfl
  exact ⟨accepted, rfl, typed_define accepted square⟩

end Condition

end DiceOdds
