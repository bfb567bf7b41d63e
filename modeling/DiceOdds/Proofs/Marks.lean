import DiceOdds.Proofs.NormalForm
import DiceOdds.Proofs.UnmarkedTyping

/-
This file shows that marks cannot be observed. Plans record the calls of constructors that build an
expression, and two plans that differ in marks only have the same outcomes or the same fault.
-/

namespace DiceOdds

open Marked (unmark)

mutual

/-- A plan names the constructors that build a type. -/
inductive TypePlan where
  | integer
  | boolean
  | symbol (category : Symbol)
  | vector (space : SpacePlan)

/-- A joined space joins a list of spaces. -/
inductive SpacePlan where
  | unit (category : Symbol)
  | listed (dimensions : List (Symbol × TypePlan))
  | joined (spaces : List SpacePlan)

end

mutual

/-- A plan names the constructors that build a value. -/
inductive ValuePlan where
  | integer (number : Int)
  | boolean (truth : Bool)
  | symbol (category : Symbol)
  | vector (vector : VectorPlan)

inductive VectorPlan where
  | zero (space : SpacePlan)
  | unit (category : Symbol)
  | listed (space : SpacePlan) (components : List (Symbol × ValuePlan))
  | embedded (vector : VectorPlan) (target : SpacePlan)

end

/-- A plan names the constructors that build an expression. -/
inductive ExpressionPlan where
  | constant (value : ValuePlan)
  | pool (dice : DicePool)
  | bracketed (inner : ExpressionPlan)
  | converted (source : ExpressionPlan) (target : TypePlan)
  | coerced (source : ExpressionPlan) (target : TypePlan)
  | binary (left : ExpressionPlan) (operator : Operator) (right : ExpressionPlan)

section Build

mutual

/-- The first constructor that refuses its arguments decides the fault. -/
def TypePlan.build : TypePlan → Except Fault ValueType
  | .integer => .ok .integer
  | .boolean => .ok .boolean
  | .symbol category => .ok (.symbol category)
  | .vector space => do return .vector (← space.build)

def SpacePlan.build : SpacePlan → Except Fault Space
  | .unit category => .ok (.unit category)
  | .listed dimensions => do Space.ofDimensions? (← buildDimensions dimensions)
  | .joined spaces => do Space.joinAll? (← buildSpaces spaces)

def buildDimensions : List (Symbol × TypePlan) → Except Fault (List (Symbol × ValueType))
  | [] => .ok []
  | (dimension, type) :: rest => do
      let built ← type.build
      return (dimension, built) :: (← buildDimensions rest)

def buildSpaces : List SpacePlan → Except Fault (List Space)
  | [] => .ok []
  | space :: rest => do
      let built ← space.build
      return built :: (← buildSpaces rest)

end

mutual

def ValuePlan.build : ValuePlan → Except Fault Value
  | .integer number => .ok (.integer number)
  | .boolean truth => .ok (.boolean truth)
  | .symbol category => .ok (.symbol category)
  | .vector vector => do return .vector (← vector.build)

def VectorPlan.build : VectorPlan → Except Fault SparseVector
  | .zero space => do return .zero (← space.build)
  | .unit category => .ok (.unit category)
  | .listed space components => do
      let built ← space.build
      SparseVector.ofComponents? built (← buildComponents components)
  | .embedded vector target => do
      let built ← vector.build
      built.embed? (← target.build)

def buildComponents : List (Symbol × ValuePlan) → Except Fault (List (Symbol × Value))
  | [] => .ok []
  | (dimension, value) :: rest => do
      let built ← value.build
      return (dimension, built) :: (← buildComponents rest)

end

def ExpressionPlan.build : ExpressionPlan → Except Fault Expression
  | .constant value => do return .constant (← value.build)
  | .pool dice => .ok (.pool dice)
  | .bracketed inner => do return .bracketed (← inner.build)
  | .converted source target => do
      let built ← source.build
      built.convert? (← target.build)
  | .coerced source target => do
      let built ← source.build
      built.coerce? (← target.build)
  | .binary left operator right => do
      let first ← left.build
      first.binary? operator (← right.build)

end Build

section Unmark

mutual

def TypePlan.unmarked : TypePlan → TypePlan
  | .integer => .integer
  | .boolean => .boolean
  | .symbol category => .symbol (unmark category)
  | .vector space => .vector space.unmarked

def SpacePlan.unmarked : SpacePlan → SpacePlan
  | .unit category => .unit (unmark category)
  | .listed dimensions => .listed (unmarkedDimensionPlans dimensions)
  | .joined spaces => .joined (unmarkedSpacePlans spaces)

def unmarkedDimensionPlans : List (Symbol × TypePlan) → List (Symbol × TypePlan)
  | [] => []
  | (dimension, type) :: rest => (unmark dimension, type.unmarked) :: unmarkedDimensionPlans rest

def unmarkedSpacePlans : List SpacePlan → List SpacePlan
  | [] => []
  | space :: rest => space.unmarked :: unmarkedSpacePlans rest

end

mutual

def ValuePlan.unmarked : ValuePlan → ValuePlan
  | .integer number => .integer number
  | .boolean truth => .boolean truth
  | .symbol category => .symbol (unmark category)
  | .vector vector => .vector vector.unmarked

def VectorPlan.unmarked : VectorPlan → VectorPlan
  | .zero space => .zero space.unmarked
  | .unit category => .unit (unmark category)
  | .listed space components => .listed space.unmarked (unmarkedComponentPlans components)
  | .embedded vector target => .embedded vector.unmarked target.unmarked

def unmarkedComponentPlans : List (Symbol × ValuePlan) → List (Symbol × ValuePlan)
  | [] => []
  | (dimension, value) :: rest => (unmark dimension, value.unmarked) :: unmarkedComponentPlans rest

end

def ExpressionPlan.unmarked : ExpressionPlan → ExpressionPlan
  | .constant value => .constant value.unmarked
  | .pool dice => .pool dice
  | .bracketed inner => .bracketed inner.unmarked
  | .converted source target => .converted source.unmarked target.unmarked
  | .coerced source target => .coerced source.unmarked target.unmarked
  | .binary left operator right => .binary left.unmarked operator right.unmarked

instance : Marked ExpressionPlan :=
  ⟨ExpressionPlan.unmarked⟩

end Unmark

section Commutes

mutual

theorem TypePlan.build_unmarked (plan : TypePlan) : plan.unmarked.build = unmark plan.build := by
  cases plan with
  | integer | boolean | symbol => rfl
  | vector space =>
      rw [TypePlan.unmarked, TypePlan.build, TypePlan.build, SpacePlan.build_unmarked space]
      exact bind_unmark fun built => congrArg Except.ok (ValueType.unmark_vector built).symm

theorem SpacePlan.build_unmarked (plan : SpacePlan) : plan.unmarked.build = unmark plan.build := by
  cases plan with
  | unit category => rfl
  | listed dimensions =>
      rw [SpacePlan.unmarked, SpacePlan.build, SpacePlan.build, buildDimensions_unmarked dimensions]
      exact bind_unmark Space.ofDimensions?_unmark
  | joined spaces =>
      rw [SpacePlan.unmarked, SpacePlan.build, SpacePlan.build, buildSpaces_unmarked spaces]
      exact bind_unmark Space.joinAll?_unmark

theorem buildDimensions_unmarked (plans : List (Symbol × TypePlan)) :
    buildDimensions (unmarkedDimensionPlans plans) = unmark (buildDimensions plans) := by
  match plans with
  | [] => rfl
  | (dimension, type) :: rest =>
      rw [unmarkedDimensionPlans, buildDimensions, buildDimensions, TypePlan.build_unmarked type,
        buildDimensions_unmarked rest]
      exact bind_unmark fun built => bind_unmark fun others => rfl

theorem buildSpaces_unmarked (plans : List SpacePlan) :
    buildSpaces (unmarkedSpacePlans plans) = unmark (buildSpaces plans) := by
  match plans with
  | [] => rfl
  | space :: rest =>
      rw [unmarkedSpacePlans, buildSpaces, buildSpaces, SpacePlan.build_unmarked space,
        buildSpaces_unmarked rest]
      exact bind_unmark fun built => bind_unmark fun others => rfl

end

mutual

theorem ValuePlan.build_unmarked (plan : ValuePlan) : plan.unmarked.build = unmark plan.build := by
  cases plan with
  | integer | boolean | symbol => rfl
  | vector vector =>
      rw [ValuePlan.unmarked, ValuePlan.build, ValuePlan.build, VectorPlan.build_unmarked vector]
      exact bind_unmark fun built => congrArg Except.ok (Value.unmark_vector built).symm

theorem VectorPlan.build_unmarked (plan : VectorPlan) :
    plan.unmarked.build = unmark plan.build := by
  cases plan with
  | zero space =>
      rw [VectorPlan.unmarked, VectorPlan.build, VectorPlan.build, SpacePlan.build_unmarked space]
      exact bind_unmark fun built => rfl
  | unit category => rfl
  | listed space components =>
      rw [VectorPlan.unmarked, VectorPlan.build, VectorPlan.build, SpacePlan.build_unmarked space,
        buildComponents_unmarked components]
      exact bind_unmark fun built => bind_unmark (SparseVector.ofComponents?_unmark built)
  | embedded vector target =>
      rw [VectorPlan.unmarked, VectorPlan.build, VectorPlan.build, VectorPlan.build_unmarked vector,
        SpacePlan.build_unmarked target]
      exact bind_unmark fun built => bind_unmark (SparseVector.embed?_unmark built)

theorem buildComponents_unmarked (plans : List (Symbol × ValuePlan)) :
    buildComponents (unmarkedComponentPlans plans) = unmark (buildComponents plans) := by
  match plans with
  | [] => rfl
  | (dimension, value) :: rest =>
      rw [unmarkedComponentPlans, buildComponents, buildComponents, ValuePlan.build_unmarked value,
        buildComponents_unmarked rest]
      exact bind_unmark fun built => bind_unmark fun others => rfl

end

/-- A plan without its marks builds the same expression, or has the same fault, without marks. -/
theorem ExpressionPlan.build_unmark (plan : ExpressionPlan) :
    (unmark plan).build = unmark plan.build := by
  change plan.unmarked.build = _
  induction plan with
  | constant value =>
      rw [unmarked, build, build, value.build_unmarked]
      exact bind_unmark fun built => rfl
  | pool dice => rfl
  | bracketed inner known =>
      rw [unmarked, build, build, known]
      exact bind_unmark fun built => rfl
  | converted source target known =>
      rw [unmarked, build, build, known, target.build_unmarked]
      exact bind_unmark fun built => bind_unmark (Expression.convert?_unmark built)
  | coerced source target known =>
      rw [unmarked, build, build, known, target.build_unmarked]
      exact bind_unmark fun built => bind_unmark (Expression.coerce?_unmark built)
  | binary left operator right ofLeft ofRight =>
      rw [unmarked, build, build, ofLeft, ofRight]
      exact bind_unmark fun first => bind_unmark (Expression.binary?_unmark first operator)

end Commutes

section Complete

theorem exists_dimensionPlans {dimensions : List (Symbol × ValueType)}
    (planned : ∀ dimension ∈ dimensions, ∃ plan : TypePlan, plan.build = .ok dimension.2) :
    ∃ plans, buildDimensions plans = .ok dimensions := by
  induction dimensions with
  | nil => exact ⟨[], rfl⟩
  | cons dimension rest known =>
      obtain ⟨⟨plan, built⟩, later⟩ := List.forall_mem_cons.1 planned
      obtain ⟨plans, others⟩ := known later
      refine ⟨(dimension.1, plan) :: plans, ?_⟩
      rw [buildDimensions, built, others]
      rfl

theorem exists_spacePlan {plan : TypePlan} {space : Space}
    (built : plan.build = .ok (.vector space)) : ∃ inner : SpacePlan, inner.build = .ok space := by
  cases plan with
  | vector inner =>
      rw [TypePlan.build] at built
      obtain ⟨found, ran, same⟩ := Except.bind_eq_ok built
      cases same
      exact ⟨inner, ran⟩
  | _ => cases built

theorem ValueType.Built.exists_plan {type : ValueType} (built : type.Built) :
    ∃ plan : TypePlan, plan.build = .ok type := by
  induction built with
  | integer => exact ⟨.integer, rfl⟩
  | boolean => exact ⟨.boolean, rfl⟩
  | symbol category => exact ⟨.symbol category, rfl⟩
  | unit category => exact ⟨.vector (.unit category), rfl⟩
  | listed inner made known =>
      obtain ⟨plans, dimensions⟩ := exists_dimensionPlans known
      refine ⟨.vector (.listed plans), ?_⟩
      rw [TypePlan.build, SpacePlan.build, dimensions]
      exact congrArg (· >>= _) made
  | @joined first second space left right made ofLeft ofRight =>
      obtain ⟨leftPlan, leftBuilt⟩ := ofLeft
      obtain ⟨rightPlan, rightBuilt⟩ := ofRight
      obtain ⟨one, ofFirst⟩ := exists_spacePlan leftBuilt
      obtain ⟨other, ofSecond⟩ := exists_spacePlan rightBuilt
      refine ⟨.vector (.joined [one, other]), ?_⟩
      have joined : Space.joinAll? [first, second] = .ok space := by
        rw [Space.joinAll?, List.foldlM_cons, made]
        rfl
      rw [TypePlan.build, SpacePlan.build, buildSpaces, buildSpaces, buildSpaces, ofFirst, ofSecond]
      exact congrArg (· >>= _) joined

theorem exists_componentPlans {components : List (Symbol × Value)}
    (planned : ∀ component ∈ components, ∃ plan : ValuePlan, plan.build = .ok component.2) :
    ∃ plans, buildComponents plans = .ok components := by
  induction components with
  | nil => exact ⟨[], rfl⟩
  | cons component rest known =>
      obtain ⟨⟨plan, built⟩, later⟩ := List.forall_mem_cons.1 planned
      obtain ⟨plans, others⟩ := known later
      refine ⟨(component.1, plan) :: plans, ?_⟩
      rw [buildComponents, built, others]
      rfl

theorem exists_vectorPlan {plan : ValuePlan} {vector : SparseVector}
    (built : plan.build = .ok (.vector vector)) :
    ∃ inner : VectorPlan, inner.build = .ok vector := by
  cases plan with
  | vector inner =>
      rw [ValuePlan.build] at built
      obtain ⟨found, ran, same⟩ := Except.bind_eq_ok built
      cases same
      exact ⟨inner, ran⟩
  | _ => cases built

theorem Value.Built.exists_plan {value : Value} (built : value.Built) :
    ∃ plan : ValuePlan, plan.build = .ok value := by
  induction built with
  | integer number => exact ⟨.integer number, rfl⟩
  | boolean truth => exact ⟨.boolean truth, rfl⟩
  | symbol category => exact ⟨.symbol category, rfl⟩
  | zero ofSpace =>
      obtain ⟨plan, built⟩ := ofSpace.exists_plan
      obtain ⟨space, found⟩ := exists_spacePlan built
      refine ⟨.vector (.zero space), ?_⟩
      rw [ValuePlan.build, VectorPlan.build, found]
      rfl
  | unit category => exact ⟨.vector (.unit category), rfl⟩
  | listed ofSpace stored made known =>
      obtain ⟨plan, built⟩ := ofSpace.exists_plan
      obtain ⟨space, found⟩ := exists_spacePlan built
      obtain ⟨plans, components⟩ := exists_componentPlans known
      refine ⟨.vector (.listed space plans), ?_⟩
      rw [ValuePlan.build, VectorPlan.build, found, components]
      exact congrArg (· >>= _) made
  | embedded inner ofTarget made known =>
      obtain ⟨plan, built⟩ := known
      obtain ⟨vector, found⟩ := exists_vectorPlan built
      obtain ⟨targetPlan, targetBuilt⟩ := ofTarget.exists_plan
      obtain ⟨target, ofSpace⟩ := exists_spacePlan targetBuilt
      refine ⟨.vector (.embedded vector target), ?_⟩
      rw [ValuePlan.build, VectorPlan.build, found, ofSpace]
      exact congrArg (· >>= _) made

/-- Every expression that the constructors can build has a plan. -/
theorem Expression.Built.exists_plan {expression : Expression} (built : expression.Built) :
    ∃ plan : ExpressionPlan, plan.build = .ok expression := by
  induction built with
  | constant built =>
      obtain ⟨plan, made⟩ := built.exists_plan
      exact ⟨.constant plan, by rw [ExpressionPlan.build, made]; rfl⟩
  | pool dice => exact ⟨.pool dice, rfl⟩
  | bracketed built known =>
      obtain ⟨plan, inner⟩ := known
      exact ⟨.bracketed plan, by rw [ExpressionPlan.build, inner]; rfl⟩
  | converted built ofTarget made known =>
      obtain ⟨plan, source⟩ := known
      obtain ⟨target, found⟩ := ofTarget.exists_plan
      exact ⟨.converted plan target, by rw [ExpressionPlan.build, source, found]; exact made⟩
  | coerced built ofTarget made known =>
      obtain ⟨plan, source⟩ := known
      obtain ⟨target, found⟩ := ofTarget.exists_plan
      exact ⟨.coerced plan target, by rw [ExpressionPlan.build, source, found]; exact made⟩
  | @binary left right expression operator ofLeft ofRight made knownLeft knownRight =>
      obtain ⟨first, leftBuilt⟩ := knownLeft
      obtain ⟨second, rightBuilt⟩ := knownRight
      refine ⟨.binary first operator second, ?_⟩
      rw [ExpressionPlan.build, leftBuilt, rightBuilt]
      exact made

end Complete

section Observation

/-- Two things differ in marks only when they are the same without them. -/
def SameUnmarked {A : Type} [Marked A] (first second : A) : Prop :=
  unmark first = unmark second

theorem SameUnmarked.agree {E A : Type} [Marked E] [Marked A] {first second : Except E A}
    (same : SameUnmarked first second) : Agree SameUnmarked SameUnmarked first second := by
  cases first with
  | error fault =>
      cases second with
      | error other => exact .error (Except.error.inj same)
      | ok result => cases same
  | ok result =>
      cases second with
      | error fault => cases same
      | ok other => exact .ok (Except.ok.inj same)

theorem SameUnmarked.type_beq {first second : ValueType} (same : SameUnmarked first second) :
    first == second := by
  rw [← ValueType.beq_unmark, same]
  exact BEq.rfl

theorem SameUnmarked.value_beq {first second : Value} (same : SameUnmarked first second) :
    first == second := by
  rw [← Value.beq_unmark, same]
  exact BEq.rfl

theorem SameUnmarked.matches {first second : Distribution Value}
    (same : SameUnmarked first second) : first.Matches second := by
  have events : List.Forall₂ Eq (first.events.map unmark) (second.events.map unmark) :=
    List.forall₂_eq_eq_eq ▸ congrArg Distribution.events same
  rw [List.forall₂_map_left_iff, List.forall₂_map_right_iff] at events
  refine events.imp fun left right equal => ?_
  have values := congrArg Event.value equal
  have probabilities := congrArg Event.probability equal
  exact ⟨Value.beq_iff_compare.1 (value_beq values), probabilities⟩

/-- Two expressions cannot be told apart when they have equal types, and equal outcomes or faults
that differ in marks only. -/
def Expression.Indistinct (first second : Expression) : Prop :=
  first.type == second.type ∧
    Agree SameUnmarked Distribution.Matches first.evaluate second.evaluate

theorem SameUnmarked.indistinct {first second : Expression} (same : SameUnmarked first second) :
    first.Indistinct second := by
  have types : SameUnmarked first.type second.type := by
    rw [SameUnmarked, ← Expression.type_unmark, same, Expression.type_unmark]
  have outcomes : SameUnmarked first.evaluate second.evaluate := by
    rw [SameUnmarked, ← Expression.evaluate_unmark, same, Expression.evaluate_unmark]
  exact ⟨types.type_beq, outcomes.agree.imp (fun _ _ related => related) fun _ _ =>
    SameUnmarked.matches⟩

/-- No result shows a mark. Whether an expression is built by constructors or made from a condition,
other marks lead to the same fault up to the marks that it quotes, or to an expression of an equal
type that has equal outcomes, or again the same fault up to marks. -/
theorem marks_unobservable :
    (∀ first second : ExpressionPlan, SameUnmarked first second →
      Agree SameUnmarked Expression.Indistinct first.build second.build) ∧
    ∀ (scope : Scope) (limits : Limits) (first second : Condition), SameUnmarked first second →
      Agree SameUnmarked Expression.Indistinct (first.typed scope limits)
        (second.typed scope limits) := by
  refine ⟨fun first second same => ?_, fun scope limits first second same => ?_⟩
  · have built : SameUnmarked first.build second.build := by
      rw [SameUnmarked, ← first.build_unmark, same, second.build_unmark]
    exact built.agree.imp (fun _ _ related => related) fun _ _ => SameUnmarked.indistinct
  · have typed : SameUnmarked (first.typed scope limits) (second.typed scope limits) := by
      rw [SameUnmarked, ← Condition.typed_unmark, same, Condition.typed_unmark]
    exact typed.agree.imp (fun _ _ related => related) fun _ _ => SameUnmarked.indistinct

/-- Two spellings of a sum of symbols are different, but not their results. -/
theorem marks_unobservable_sum :
    let plan (one other : Symbol) : ExpressionPlan :=
      .binary (.constant (.symbol one)) .add (.constant (.symbol other))
    let sum (one other : Symbol) : Condition :=
      .leaf (.node (.leaf (.symbol one)) .add (.leaf (.symbol other)))
    let first := plan ⟨"a", .tick⟩ ⟨"b", .colon⟩
    let second := plan ⟨"a", .colon⟩ ⟨"b", .tick⟩
    first ≠ second ∧ Agree SameUnmarked Expression.Indistinct first.build second.build ∧
      Agree SameUnmarked Expression.Indistinct
        ((sum ⟨"a", .tick⟩ ⟨"b", .colon⟩).typed .empty .standard)
        ((sum ⟨"a", .colon⟩ ⟨"b", .tick⟩).typed .empty .standard) := by
  intro plan sum first second
  have samePlans : SameUnmarked first second := rfl
  have sameSums : SameUnmarked (sum ⟨"a", .tick⟩ ⟨"b", .colon⟩)
      (sum ⟨"a", .colon⟩ ⟨"b", .tick⟩) := rfl
  refine ⟨?_, marks_unobservable.1 first second samePlans,
    marks_unobservable.2 .empty .standard _ _ sameSums⟩
  intro equal
  injection equal with left
  cases left

end Observation

end DiceOdds
