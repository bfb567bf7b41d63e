import DiceOdds.Expression.Evaluation
import DiceOdds.Proofs.PoolLaw
import DiceOdds.Proofs.PoolLimits
import DiceOdds.Proofs.Unmarking

/-
This file takes the marks away from expressions, from what they evaluate to, and from conditions.
Operations, evaluation and typing commute with that as well.
-/

namespace DiceOdds

open Marked (unmark)

namespace Operator

theorem supportsAll_unmark (operator : Operator) {dimensions : List (Symbol × ValueType)}
    (inner : ∀ dimension ∈ dimensions,
      operator.supports (unmark dimension.2) = operator.supports dimension.2) :
    operator.supportsAll (unmark dimensions) = operator.supportsAll dimensions := by
  induction dimensions with
  | nil => rfl
  | cons dimension rest known =>
      obtain ⟨first, later⟩ := List.forall_mem_cons.1 inner
      rw [supportsAll, ← first, ← known later]
      rfl

@[simp] theorem supports_unmark (operator : Operator) (type : ValueType) :
    operator.supports (unmark type) = operator.supports type := by
  induction type using ValueType.induction with
  | vector dimensions known =>
      rw [ValueType.unmark_vector, supports, ← supportsAll_unmark operator known]
      rfl
  | _ => rfl

/-- No integer and no fault of integers has a mark. -/
theorem unmark_computeInteger (operator : Operator) (left right : Int) :
    unmark (operator.computeInteger left right) = operator.computeInteger left right := by
  unfold computeInteger
  split
  · rfl
  · split
    · rfl
    · split <;> rfl

/-- Operands that do not fit are quoted without their marks. -/
theorem mismatch_unmark (operator : Operator) (left right : Value) :
    Except.error (.mismatchedOperands operator (unmark left).type (unmark right).type) =
      unmark (.error (.mismatchedOperands operator left.type right.type) :
        Except Fault Value) := by
  rw [Value.type_unmark, Value.type_unmark]
  rfl

mutual

theorem computeArithmetic_unmark (operator : Operator) (type : ValueType) (left right : Value) :
    operator.computeArithmetic (unmark type) (unmark left) (unmark right) =
      unmark (operator.computeArithmetic type left right) := by
  have refused := mismatch_unmark operator left right
  match type with
  | .integer =>
      cases left <;> cases right
      case integer.integer left right => exact (unmark_computeInteger operator left right).symm
      all_goals
        try simp only [Value.unmark_vector] at refused ⊢
        exact refused
  | .vector ⟨dimensions⟩ =>
      rw [ValueType.unmark_vector]
      -- Two vectors are computed; all other operands are refused, as before with their types.
      cases left <;> cases right
      case vector.vector left right =>
        simp only [Value.unmark_vector] at refused ⊢
        change (if operator.isDefinedOn .vector && unmark left.space == unmark right.space then
          do
            let components ← operator.computeDimensions (unmark dimensions) (unmark left).reading
              (unmark right).reading
            return Value.vector (← SparseVector.ofComponents? (unmark left.space) components)
          else _) = unmark (if operator.isDefinedOn .vector && left.space == right.space then _
            else _)
        rw [Space.beq_unmark]
        split
        · rw [SparseVector.reading_unmark, SparseVector.reading_unmark,
            computeDimensions_unmark operator dimensions]
          refine bind_unmark fun components => ?_
          rw [SparseVector.ofComponents?_unmark]
          exact bind_unmark fun vector => congrArg Except.ok (Value.unmark_vector vector).symm
        · exact refused
      all_goals
        try simp only [Value.unmark_vector] at refused ⊢
        exact refused
  | .boolean | .symbol _ => exact refused

theorem computeDimensions_unmark (operator : Operator) (types : List (Symbol × ValueType))
    (lefts rights : List (Symbol × Value)) :
    operator.computeDimensions (unmark types) (unmark lefts) (unmark rights) =
      unmark (operator.computeDimensions types lefts rights) := by
  match types, lefts, rights with
  | [], _, _ => rfl
  | _ :: _, [], _ => rfl
  | _ :: _, _ :: _, [] => rfl
  | (_, type) :: types, (dimension, left) :: lefts, (_, right) :: rights =>
      simp only [unmark_cons, unmark_pair, computeDimensions]
      rw [computeArithmetic_unmark operator type, computeDimensions_unmark operator types]
      exact bind_unmark fun value => bind_unmark fun values => rfl

end

theorem compute_unmark (operator : Operator) (left right : Value) :
    operator.compute (unmark left) (unmark right) = unmark (operator.compute left right) := by
  have refused := mismatch_unmark operator left right
  cases operator with
  | add | subtract | multiply | divide =>
      rw [compute, compute, Value.type_unmark, computeArithmetic_unmark]
  | equal =>
      simp only [compute, Value.type_unmark, ValueType.beq_unmark, Value.beq_unmark]
      split <;> rfl
  | _ =>
      cases left <;> cases right
      case integer.integer | boolean.boolean => rfl
      all_goals
        try simp only [Value.unmark_vector] at refused ⊢
        exact refused

end Operator

namespace Operation

instance : Marked Operation :=
  ⟨fun operation => ⟨operation.operator, unmark operation.operand, unmark operation.result⟩⟩

theorem find?_unmark (operator : Operator) (left right : ValueType) :
    find? operator (unmark left) (unmark right) = unmark (find? operator left right) := by
  rw [find?, find?, ValueType.common?_unmark]
  cases left.common? right with
  | none => rfl
  | some operand =>
      simp only [unmark_some, Operator.supports_unmark]
      split
      · cases operator <;> rfl
      · rfl

theorem compute_unmark (operation : Operation) (left right : Value) :
    (unmark operation).compute (unmark left) (unmark right) =
      unmark (operation.compute left right) :=
  operation.operator.compute_unmark left right

end Operation

section Distribution

variable {A : Type} [Marked A]

instance : Marked (Event A) :=
  ⟨fun event => ⟨unmark event.value, event.probability⟩⟩

instance : Marked (Distribution A) :=
  ⟨fun distribution => ⟨unmark distribution.events⟩⟩

namespace Event

theorem notAfter_unmark (first second : Event Value) :
    notAfter (unmark first) (unmark second) = notAfter first second :=
  congrArg Ordering.isLE (Value.compare_unmark first.value second.value)

theorem absorb_unmark (event : Event Value) (events : List (Event Value)) :
    (unmark event).absorb (unmark events) = unmark (event.absorb events) := by
  cases events with
  | nil => rfl
  | cons next rest =>
      have values : compare (unmark event).value (unmark next).value =
          compare event.value next.value :=
        Value.compare_unmark event.value next.value
      rw [unmark_cons, absorb, absorb, values]
      cases compare event.value next.value <;> rfl

end Event

namespace Distribution

/-- Outcomes are sorted and merged in the same way without their marks. -/
theorem ofEvents_unmark (events : List (Event Value)) :
    ofEvents (unmark events) = unmark (ofEvents events) := by
  have sorted : (unmark events).mergeSort Event.notAfter =
      unmark (events.mergeSort Event.notAfter) :=
    (List.map_mergeSort fun first _ second _ => (Event.notAfter_unmark first second).symm).symm
  rw [ofEvents, ofEvents, sorted]
  refine congrArg Distribution.mk ?_
  induction events.mergeSort Event.notAfter with
  | nil => rfl
  | cons event rest known =>
      rw [unmark_cons, List.foldr_cons, known, List.foldr_cons]
      exact Event.absorb_unmark _ _

theorem tryMap_unmark (distribution : Distribution A) {image other : A → Except Fault Value}
    (commutes : ∀ value, other (unmark value) = unmark (image value)) :
    (unmark distribution).tryMap other = unmark (distribution.tryMap image) := by
  have events : ((unmark distribution.events).mapM fun event => do
      return (⟨← other event.value, event.probability⟩ : Event Value)) =
        unmark (distribution.events.mapM fun event => do
          return (⟨← image event.value, event.probability⟩ : Event Value)) := by
    refine mapM_unmark (fun event => ?_) distribution.events
    rw [show (unmark event).value = unmark event.value from rfl, commutes]
    exact bind_unmark fun value => rfl
  exact (congrArg (· >>= _) events).trans
    (bind_unmark fun images => congrArg Except.ok (ofEvents_unmark images))

theorem pairs_unmark (left right : Distribution A) :
    (unmark left).pairs (unmark right) = unmark (left.pairs right) := by
  change (left.events.map unmark).flatMap (fun first =>
    (right.events.map unmark).map fun second =>
      (⟨(first.value, second.value), first.probability * second.probability⟩ : Event (A × A))) =
    (left.pairs right).map unmark
  rw [pairs, List.map_flatMap, List.flatMap_map]
  simp only [List.map_map]
  rfl

theorem tryJoin_unmark (left right : Distribution A) {image other : A → A → Except Fault Value}
    (commutes : ∀ first second,
      other (unmark first) (unmark second) = unmark (image first second)) :
    (unmark left).tryJoin (unmark right) other = unmark (left.tryJoin right image) := by
  -- A joint draw is a draw of pairs, so this is a case of the lemma on single draws.
  have pairs : (unmark (⟨left.pairs right⟩ : Distribution (A × A))).tryMap
      (fun pair => other pair.1 pair.2) =
        unmark (tryMap ⟨left.pairs right⟩ fun pair => image pair.1 pair.2) :=
    tryMap_unmark _ fun pair => commutes pair.1 pair.2
  exact (congrArg (fun events => tryMap ⟨events⟩ fun pair => other pair.1 pair.2)
    (pairs_unmark left right)).trans pairs

end Distribution

end Distribution

namespace Expression

def unmarked : Expression → Expression
  | .constant value => .constant (unmark value)
  | .pool dice => .pool dice
  | .binary left operation right => .binary left.unmarked (unmark operation) right.unmarked
  | .bracketed inner => .bracketed inner.unmarked
  | .converted source target => .converted source.unmarked (unmark target)

instance : Marked Expression :=
  ⟨unmarked⟩

@[simp] theorem type_unmark (expression : Expression) :
    (unmark expression).type = unmark expression.type := by
  induction expression with
  | constant value => exact Value.type_unmark value
  | bracketed inner known => exact known
  | _ => rfl

theorem convert?_unmark (expression : Expression) (target : ValueType) :
    (unmark expression).convert? (unmark target) = unmark (expression.convert? target) := by
  rw [convert?, convert?, type_unmark, ValueType.checkConversion_unmark]
  exact bind_unmark fun _ => rfl

theorem coerce?_unmark (expression : Expression) (target : ValueType) :
    (unmark expression).coerce? (unmark target) = unmark (expression.coerce? target) := by
  rw [coerce?, coerce?, type_unmark, ValueType.beq_unmark, convert?_unmark]
  split <;> rfl

theorem binary?_unmark (left : Expression) (operator : Operator) (right : Expression) :
    (unmark left).binary? operator (unmark right) = unmark (left.binary? operator right) := by
  rw [binary?, binary?, type_unmark, type_unmark, Operation.find?_unmark]
  cases Operation.find? operator left.type right.type with
  | none => rfl
  | some operation =>
      change (unmark left).coerce? (unmark operation.operand) >>= _ = _
      rw [coerce?_unmark]
      refine bind_unmark fun first => ?_
      change (unmark right).coerce? (unmark operation.operand) >>= _ = _
      rw [coerce?_unmark]
      exact bind_unmark fun second => rfl

theorem enclosed_unmark (expression : Expression) :
    (unmark expression).enclosed = unmark expression.enclosed := by
  cases expression <;> rfl

end Expression

theorem Fault.IsCalculation.unmark_eq {fault : Fault} (calculation : fault.IsCalculation) :
    unmark fault = fault := by
  cases calculation <;> rfl

namespace Expression

theorem unmark_evaluate_pool (dice : DicePool) :
    unmark (evaluate (.pool dice)) = evaluate (.pool dice) := by
  rw [evaluate]
  cases thrown : dice.distribution with
  | error fault => exact congrArg Except.error (DicePool.distribution_error thrown).unmark_eq
  | ok sums =>
      refine congrArg Except.ok ?_
      rw [Distribution.map, ← Distribution.ofEvents_unmark]
      exact congrArg Distribution.ofEvents (List.map_map ..)

/-- Without its marks an expression has the same outcomes without theirs. -/
theorem evaluate_unmark (expression : Expression) :
    (unmark expression).evaluate = unmark expression.evaluate := by
  induction expression with
  | constant value => rfl
  | pool dice => exact (unmark_evaluate_pool dice).symm
  | binary left operation right ofLeft ofRight =>
      change (unmark left).evaluate >>= (fun first => (unmark right).evaluate >>= fun second =>
        first.tryJoin second (unmark operation).compute) = _
      rw [ofLeft, ofRight]
      refine bind_unmark fun first => bind_unmark fun second => ?_
      exact Distribution.tryJoin_unmark first second (Operation.compute_unmark operation)
  | bracketed inner known => exact known
  | converted source target known =>
      change (unmark source).evaluate >>= (fun outcomes =>
        outcomes.tryMap fun value => value.convert? (unmark target)) = _
      rw [known]
      refine bind_unmark fun outcomes => ?_
      exact Distribution.tryMap_unmark outcomes fun value => Value.convert?_unmark value target

end Expression

/-- The text at fault in a source is kept, and so are names and limits. -/
instance : Marked Failure where
  unmark
    | .calculation fault => .calculation (unmark fault)
    | .repeatedDimension dimension => .repeatedDimension (unmark dimension)
    | failure => failure

section Conditions

instance : Marked Literal :=
  ⟨id⟩

mutual

def Atom.unmarked : Atom → Atom
  | .symbol category => .symbol (unmark category)
  | .vector first others => .vector (unmark first) (unmark others)
  | .group condition => .group (unmarkedCondition condition)
  | .integer number => .integer number
  | .boolean truth => .boolean truth
  | .dice pool => .dice pool
  | .name bound => .name bound

def unmarkedTerm : OperatorTree Atom → OperatorTree Atom
  | .leaf atom => .leaf atom.unmarked
  | .node left operator right => .node (unmarkedTerm left) operator (unmarkedTerm right)

def unmarkedCondition : OperatorTree (OperatorTree Atom) → OperatorTree (OperatorTree Atom)
  | .leaf term => .leaf (unmarkedTerm term)
  | .node left operator right =>
      .node (unmarkedCondition left) operator (unmarkedCondition right)

end

instance : Marked Condition :=
  ⟨unmarkedCondition⟩

instance : Marked Scope :=
  ⟨fun scope => ⟨scope.bindings.map fun binding => (binding.1, unmark binding.2)⟩⟩

theorem Scope.find?_unmark (scope : Scope) (name : String) :
    (unmark scope).find? name = unmark (scope.find? name) := by
  change (scope.bindings.map fun binding => (binding.1, unmark binding.2)).lookup name = _
  rw [find?]
  induction scope.bindings with
  | nil => rfl
  | cons binding rest known =>
      rw [List.map_cons, List.lookup_cons, List.lookup_cons]
      cases name == binding.1 with
      | true => rfl
      | false => exact known

theorem repeatedDimension?_unmark (seen dimensions : List Symbol) :
    repeatedDimension? (unmark seen) (unmark dimensions) =
      unmark (repeatedDimension? seen dimensions) := by
  induction dimensions generalizing seen with
  | nil => rfl
  | cons dimension rest known =>
      have contained : (unmark seen).contains (unmark dimension) = seen.contains dimension := by
        induction seen with
        | nil => rfl
        | cons other others known => simp [known]
      rw [unmark_cons, repeatedDimension?, repeatedDimension?, contained]
      split
      · rfl
      · exact known (dimension :: seen)

theorem mapError_unmark {A : Type} [Marked A] (computation : Except Fault A) :
    (unmark computation).mapError Failure.calculation =
      unmark (computation.mapError Failure.calculation) := by
  cases computation <;> rfl

/-- A vector over the types of its own components is made in the same way without marks. -/
theorem stored_unmark (stored : List (Symbol × Value)) :
    (do
      let space ← Space.ofDimensions?
        ((unmark stored).map fun component : Symbol × Value => (component.1, component.2.type))
      SparseVector.ofComponents? space (unmark stored)) = unmark (do
        let space ← Space.ofDimensions?
          (stored.map fun component : Symbol × Value => (component.1, component.2.type))
        SparseVector.ofComponents? space stored) := by
  have types : ((unmark stored).map fun component : Symbol × Value =>
      (component.1, component.2.type)) =
        unmark (stored.map fun component : Symbol × Value => (component.1, component.2.type)) := by
    change (stored.map unmark).map _ = (stored.map _).map unmark
    rw [List.map_map, List.map_map]
    exact List.map_congr_left fun component _ =>
      congrArg (Prod.mk _) (Value.type_unmark component.2)
  rw [types, Space.ofDimensions?_unmark]
  exact bind_unmark fun space => SparseVector.ofComponents?_unmark space stored

theorem vectorLiteral_unmark (components : List (Symbol × Literal)) :
    vectorLiteral (unmark components) = unmark (vectorLiteral components) := by
  have names : (unmark components).map Prod.fst = unmark (components.map Prod.fst) := by
    change (components.map unmark).map Prod.fst = (components.map Prod.fst).map unmark
    rw [List.map_map, List.map_map]
    rfl
  have values : ((unmark components).map fun component => (component.1, component.2.value)) =
      unmark (components.map fun component => (component.1, component.2.value)) := by
    change (components.map unmark).map _ = (components.map _).map unmark
    rw [List.map_map, List.map_map]
    refine List.map_congr_left fun component _ => ?_
    rcases component with ⟨dimension, number | truth⟩ <;> rfl
  have repeated : repeatedDimension? [] (unmark (components.map Prod.fst)) =
      unmark (repeatedDimension? [] (components.map Prod.fst)) :=
    repeatedDimension?_unmark [] _
  rw [vectorLiteral, vectorLiteral, names, values, repeated]
  cases repeatedDimension? [] (components.map Prod.fst) with
  | some dimension => rfl
  | none =>
      simp only [unmark_none, stored_unmark, mapError_unmark]
      refine bind_unmark fun vector => ?_
      exact congrArg (Except.ok ∘ Expression.constant) (Value.unmark_vector vector).symm

theorem poolLiteral_unmark (limits : Limits) (pool : DicePool) :
    unmark (poolLiteral limits pool) = poolLiteral limits pool := by
  rcases poolLiteral_cases limits pool with ⟨-, made⟩ | ⟨-, excess, failed⟩
  · rw [made]
    rfl
  · rw [failed]
    rfl

section Typing

variable (scope : Scope) (limits : Limits)

mutual

theorem Atom.typed_unmark (atom : Atom) :
    atom.unmarked.typed (unmark scope) limits = unmark (atom.typed scope limits) := by
  cases atom with
  | integer | boolean | symbol => rfl
  | dice pool => exact (poolLiteral_unmark limits pool).symm
  | vector first others => exact vectorLiteral_unmark (first :: others)
  | name bound =>
      rw [Atom.unmarked, Atom.typed, Atom.typed, Scope.find?_unmark]
      cases scope.find? bound with
      | none => rfl
      | some expression => exact congrArg Except.ok (Expression.enclosed_unmark expression)
  | group condition =>
      rw [Atom.unmarked, Atom.typed, Atom.typed, typedCondition_unmark condition]
      exact bind_unmark fun inner => rfl

theorem typedTerm_unmark (term : OperatorTree Atom) :
    typedTerm (unmark scope) limits (unmarkedTerm term) = unmark (typedTerm scope limits term) := by
  cases term with
  | leaf atom => exact Atom.typed_unmark atom
  | node left operator right =>
      rw [unmarkedTerm, typedTerm, typedTerm, typedTerm_unmark left, typedTerm_unmark right]
      refine bind_unmark fun first => bind_unmark fun second => ?_
      rw [Expression.binary?_unmark, mapError_unmark]

theorem typedCondition_unmark (condition : OperatorTree (OperatorTree Atom)) :
    typedCondition (unmark scope) limits (unmarkedCondition condition) =
      unmark (typedCondition scope limits condition) := by
  cases condition with
  | leaf term => exact typedTerm_unmark term
  | node left operator right =>
      rw [unmarkedCondition, typedCondition, typedCondition, typedCondition_unmark left,
        typedCondition_unmark right]
      refine bind_unmark fun first => bind_unmark fun second => ?_
      rw [Expression.binary?_unmark, mapError_unmark]

end

/-- Without its marks a condition has the same expression without its marks. -/
theorem Condition.typed_unmark (condition : Condition) :
    (unmark condition).typed (unmark scope) limits = unmark (condition.typed scope limits) :=
  typedCondition_unmark scope limits condition

end Typing

end Conditions

end DiceOdds
