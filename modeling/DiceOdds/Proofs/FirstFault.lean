import DiceOdds.Proofs.Building
import DiceOdds.Proofs.PoolLimits

/-
This file says when a condition has no type. Its names, literals, dice and operators are listed from
left to right, operands before their operator, and the first of them with a fault decides the failure.
-/

namespace DiceOdds

/-- These are the places of a condition that can be at fault. -/
inductive Site where
  | name (bound : String)
  | vector (components : List (Symbol × Literal))
  | dice (pool : DicePool)
  | operator (left : Condition) (operator : Operator) (right : Condition)

mutual

/-- The sites of an atom are those of its group, or itself. -/
def Atom.sites : Atom → List Site
  | .integer _ | .boolean _ | .symbol _ => []
  | .dice pool => [.dice pool]
  | .vector first others => [.vector (first :: others)]
  | .name bound => [.name bound]
  | .group condition => conditionSites condition

def termSites : OperatorTree Atom → List Site
  | .leaf atom => Atom.sites atom
  | .node left operator right =>
      termSites left ++ (termSites right ++ [.operator (.leaf left) operator (.leaf right)])

/-- Operands come before their operator. -/
def conditionSites : OperatorTree (OperatorTree Atom) → List Site
  | .leaf term => termSites term
  | .node left operator right =>
      conditionSites left ++ (conditionSites right ++ [.operator left operator right])

end

/-- These are the sites of a condition in the order in which they are given types. -/
def Condition.sites (condition : Condition) : List Site :=
  conditionSites condition

/-- These are the sizes of a pool that are held against the limits, in this order. -/
structure Measure where
  size : PoolSize
  found : Nat
  limit : Option Nat

def Measure.Exceeds (measure : Measure) (excess : Excess) : Prop :=
  ∃ bound ∈ measure.limit, bound < measure.found ∧ excess = ⟨measure.size, measure.found, bound⟩

/-- Only a keeping pool has sorted rolls. -/
def DicePool.measures (pool : DicePool) (limits : Limits) : List Measure :=
  ⟨.diceCount, pool.count.toNat, limits.dice⟩ :: ⟨.dieSides, pool.sides.toNat, limits.faces⟩ ::
    match pool.kept with
    | none => []
    | some _ => [⟨.sortedRolls, sortedRollCount pool.count pool.sides, limits.rolls⟩]

/-- A site is at fault when its name is unbound, its vector literal repeats a dimension, its pool
exceeds a limit, or its operator has no operation for the types of its operands. -/
inductive Site.Faulty (scope : Scope) (limits : Limits) : Site → Failure → Prop where
  | name {bound : String} (unbound : scope.find? bound = none) :
      Faulty scope limits (.name bound) (.undefinedName bound)
  | vector {before after : List (Symbol × Literal)} {dimension : Symbol} {literal : Literal}
      (distinct : Symbol.Distinct before) (repeated : ∃ earlier ∈ before, dimension == earlier.1) :
      Faulty scope limits (.vector (before ++ (dimension, literal) :: after))
        (.repeatedDimension dimension)
  | dice {pool : DicePool} {excess : Excess}
      (exceeds : IsFirst Measure.Exceeds (pool.measures limits) excess) :
      Faulty scope limits (.dice pool) (.limit excess)
  | operator {left right : Condition} {operator : Operator} {first second : Expression}
      (ofLeft : left.typed scope limits = .ok first)
      (ofRight : right.typed scope limits = .ok second)
      (undefined : Operation.find? operator first.type second.type = none) :
      Faulty scope limits (.operator left operator right)
        (.calculation (.undefinedOperator operator first.type second.type))

namespace Limits

/-- Checks in a row fail on the first excess. -/
theorem forM_check_eq_error_iff {measures : List Measure} {excess : Excess} :
    (forM measures fun measure => check measure.size measure.found measure.limit) = .error excess ↔
      IsFirst Measure.Exceeds measures excess := by
  induction measures with
  | nil => simp [isFirst_nil, pure, Except.pure]
  | cons measure rest known =>
      rw [List.forM_cons, isFirst_cons, ← known]
      obtain ⟨size, found, limit⟩ := measure
      cases limit with
      | none => simp [check, Measure.Exceeds, bind, Except.bind]
      | some bound =>
          rw [check]
          split <;> simp_all [Measure.Exceeds, bind, Except.bind, eq_comm]

theorem checkLiteral_eq (limits : Limits) (pool : DicePool) : limits.checkLiteral pool =
    forM (pool.measures limits) fun measure => check measure.size measure.found measure.limit := by
  obtain ⟨count, sides, kept⟩ := pool
  cases kept <;>
    simp [checkLiteral, checkKeptPool, checkPool, DicePool.measures]

end Limits

theorem poolLiteral_eq_error_iff {limits : Limits} {pool : DicePool} {failure : Failure} :
    poolLiteral limits pool = .error failure ↔
      ∃ excess, IsFirst Measure.Exceeds (pool.measures limits) excess ∧ failure = .limit excess := by
  simp only [← Limits.forM_check_eq_error_iff, ← Limits.checkLiteral_eq]
  have opened : poolLiteral limits pool =
      (limits.checkLiteral pool).mapError Failure.limit >>= fun _ => .ok (.pool pool) := rfl
  rw [opened]
  cases limits.checkLiteral pool <;> simp [bind, Except.bind, Except.mapError, eq_comm]

/-- The dimension that is found is the first one that was seen or named before. -/
theorem repeatedDimension?_eq_some_iff {seen names : List Symbol} {dimension : Symbol} :
    repeatedDimension? seen names = some dimension ↔ ∃ before after,
      names = before ++ dimension :: after ∧ repeatedDimension? seen before = none ∧
        ∃ earlier ∈ seen ++ before, dimension == earlier := by
  induction names generalizing seen with
  | nil => simp [repeatedDimension?]
  | cons name rest known =>
      rw [repeatedDimension?]
      cases inside : seen.contains name with
      | true =>
          rw [if_pos rfl]
          obtain ⟨earlier, member, same⟩ := List.contains_iff_exists_mem_beq.1 inside
          constructor
          · rintro ⟨⟩
            exact ⟨[], rest, rfl, rfl, earlier, by simpa using member, same⟩
          · rintro ⟨before, after, split, clear, -⟩
            cases before with
            | nil => cases split; rfl
            | cons head before =>
                cases split
                simp [repeatedDimension?, inside] at clear
      | false =>
          rw [if_neg Bool.false_ne_true, known]
          constructor
          · rintro ⟨before, after, rfl, clear, earlier, member, same⟩
            refine ⟨name :: before, after, rfl, ?_, earlier, ?_, same⟩
            · rw [repeatedDimension?, inside]
              exact clear
            · simpa [or_left_comm] using member
          · rintro ⟨before, after, split, clear, earlier, member, same⟩
            cases before with
            | nil =>
                cases split
                rw [List.append_nil] at member
                rw [List.contains_iff_exists_mem_beq.2 ⟨earlier, member, same⟩] at inside
                cases inside
            | cons head before =>
                cases split
                rw [repeatedDimension?, inside] at clear
                exact ⟨before, after, rfl, clear, earlier, by simpa [or_left_comm] using member, same⟩

/-- A vector literal fails on the first dimension that it repeats. -/
theorem vectorLiteral_eq_error_iff {components : List (Symbol × Literal)} {failure : Failure} :
    vectorLiteral components = .error failure ↔ ∃ before dimension literal after,
      components = before ++ (dimension, literal) :: after ∧ Symbol.Distinct before ∧
        (∃ earlier ∈ before, dimension == earlier.1) ∧ failure = .repeatedDimension dimension := by
  have opened : vectorLiteral components = .error failure ↔ ∃ dimension,
      repeatedDimension? [] (components.map Prod.fst) = some dimension ∧
        failure = .repeatedDimension dimension := by
    cases found : repeatedDimension? [] (components.map Prod.fst) with
    | none => simp [vectorLiteral_of_distinct (repeatedDimension?_iff_distinct.1 found)]
    | some dimension =>
        rw [vectorLiteral, found]
        simp [throw, throwThe, MonadExceptOf.throw, bind, Except.bind, eq_comm]
  rw [opened]
  constructor
  · rintro ⟨dimension, found, rfl⟩
    obtain ⟨before, after, split, clear, earlier, member, same⟩ :=
      repeatedDimension?_eq_some_iff.1 found
    obtain ⟨first, second, rfl, rfl, named⟩ := List.map_eq_append_iff.1 split
    obtain ⟨⟨_, literal⟩, rest, rfl, rfl, rfl⟩ := List.map_eq_cons_iff.1 named
    obtain ⟨component, inside, rfl⟩ := List.mem_map.1 member
    exact ⟨first, _, literal, rest, rfl, repeatedDimension?_iff_distinct.1 clear,
      ⟨component, inside, same⟩, rfl⟩
  · rintro ⟨before, dimension, literal, after, rfl, distinct, ⟨earlier, member, same⟩, rfl⟩
    refine ⟨dimension, repeatedDimension?_eq_some_iff.2 ?_, rfl⟩
    exact ⟨before.map Prod.fst, after.map Prod.fst, by simp,
      repeatedDimension?_iff_distinct.2 distinct, earlier.1, List.mem_map_of_mem member, same⟩

/-- A typing decides sites when it fails on the first fault among them and has a well-formed type
otherwise. -/
structure Decides (fails : Site → Failure → Prop) (sites : List Site)
    (typing : Except Failure Expression) : Prop where
  error_iff : ∀ failure, typing = .error failure ↔ IsFirst fails sites failure
  formed : ∀ expression, typing = .ok expression → expression.type.WellFormed

namespace Decides

variable {fails : Site → Failure → Prop} {typing : Except Failure Expression}

theorem nothing {expression : Expression} (formed : expression.type.WellFormed) :
    Decides fails [] (.ok expression) where
  error_iff failure := by simp [isFirst_nil]
  formed other made := by
    cases made
    exact formed

theorem single {site : Site} (own : ∀ failure, typing = .error failure ↔ fails site failure)
    (formed : ∀ expression, typing = .ok expression → expression.type.WellFormed) :
    Decides fails [site] typing where
  error_iff failure := by simp [isFirst_cons, isFirst_nil, own]
  formed := formed

theorem bracketed {sites : List Site} (inner : Decides fails sites typing) :
    Decides fails sites (do
      let expression ← typing
      return .bracketed expression) where
  error_iff failure := by
    rw [← inner.error_iff]
    cases typing <;> simp [bind, Except.bind, pure, Except.pure]
  formed expression made := by
    obtain ⟨source, ofSource, made⟩ := Except.bind_eq_ok made
    cases made
    exact inner.formed source ofSource

/-- The sites of a node are decided after those of its operands. -/
theorem node {sites more : List Site} {site : Site} {left right : Except Failure Expression}
    {operator : Operator} (ofLeft : Decides fails sites left) (ofRight : Decides fails more right)
    (own : ∀ failure, fails site failure ↔ ∃ first second, left = .ok first ∧
      right = .ok second ∧ Operation.find? operator first.type second.type = none ∧
        failure = .calculation (.undefinedOperator operator first.type second.type)) :
    Decides fails (sites ++ (more ++ [site])) (do
      let first ← left
      let second ← right
      (first.binary? operator second).mapError .calculation) where
  error_iff failure := by
    simp only [isFirst_append, isFirst_cons, isFirst_nil, ← ofLeft.error_iff, ← ofRight.error_iff,
      own]
    cases left with
    | error found => simp [bind, Except.bind]
    | ok first =>
        cases right with
        | error found => simp [bind, Except.bind]
        | ok second =>
            have formedFirst := ofLeft.formed first rfl
            have formedSecond := ofRight.formed second rfl
            simp only [reduceCtorEq, false_or, not_false_eq_true, implies_true, true_and, or_false,
              and_false, Except.ok.injEq, exists_and_left, exists_eq_left']
            change Except.mapError _ (first.binary? operator second) = _ ↔ _
            constructor
            · intro ran
              obtain ⟨fault, failed, rfl⟩ := Except.mapError_eq_error ran
              obtain ⟨missing, rfl⟩ :=
                (Expression.binary?_eq_error_iff formedFirst formedSecond).1 failed
              exact ⟨missing, rfl⟩
            · rintro ⟨missing, rfl⟩
              rw [(Expression.binary?_eq_error_iff formedFirst formedSecond).2 ⟨missing, rfl⟩]
              rfl
  formed expression made := by
    obtain ⟨first, ofFirst, made⟩ := Except.bind_eq_ok made
    obtain ⟨second, ofSecond, made⟩ := Except.bind_eq_ok made
    exact Expression.binary?_type_wellFormed (ofLeft.formed first ofFirst)
      (ofRight.formed second ofSecond) (Except.mapError_eq_ok made)

end Decides

theorem Expression.enclosed_type (expression : Expression) :
    expression.enclosed.type = expression.type := by
  cases expression <;> rfl

theorem poolLiteral_type {limits : Limits} {pool : DicePool} {expression : Expression}
    (made : poolLiteral limits pool = .ok expression) : expression.type = .integer := by
  rcases poolLiteral_cases limits pool with ⟨-, literal⟩ | ⟨-, excess, failed⟩
  · rw [literal] at made
    cases made
    rfl
  · rw [failed] at made
    cases made

theorem vectorLiteral_type_wellFormed {components : List (Symbol × Literal)}
    {expression : Expression} (made : vectorLiteral components = .ok expression) :
    expression.type.WellFormed := by
  rw [vectorLiteral_of_distinct (distinct_of_vectorLiteral made)] at made
  cases made
  refine .vector _ (ascending_literalType (Symbol.ascending_sorted components)) ?_
  intro dimension member
  obtain ⟨⟨name, literal⟩, -, rfl⟩ := List.mem_map.1 member
  cases literal with
  | integer number => exact .integer
  | boolean truth => exact .boolean

section Typing

variable {scope : Scope} {limits : Limits}

theorem Site.faulty_operator_iff {left right : Condition} {operator : Operator} {failure : Failure} :
    Site.Faulty scope limits (.operator left operator right) failure ↔ ∃ first second,
      left.typed scope limits = .ok first ∧ right.typed scope limits = .ok second ∧
        Operation.find? operator first.type second.type = none ∧
          failure = .calculation (.undefinedOperator operator first.type second.type) := by
  constructor
  · intro faulty
    cases faulty with
    | operator ofLeft ofRight undefined => exact ⟨_, _, ofLeft, ofRight, undefined, rfl⟩
  · rintro ⟨first, second, ofLeft, ofRight, undefined, rfl⟩
    exact .operator ofLeft ofRight undefined

mutual

theorem Atom.typed_decides (bound : ∀ binding ∈ scope.bindings, binding.2.type.WellFormed)
    (atom : Atom) :
    Decides (Site.Faulty scope limits) atom.sites (atom.typed scope limits) := by
  cases atom with
  | integer number => exact .nothing .integer
  | boolean truth => exact .nothing .boolean
  | symbol category => exact .nothing (.symbol category)
  | dice pool =>
      refine .single (fun failure => ?_) fun expression made => ?_
      · rw [Atom.typed, poolLiteral_eq_error_iff]
        constructor
        · rintro ⟨excess, exceeds, rfl⟩
          exact .dice exceeds
        · intro faulty
          cases faulty with
          | dice exceeds => exact ⟨_, exceeds, rfl⟩
      · rw [poolLiteral_type made]
        exact .integer
  | vector first others =>
      refine .single (fun failure => ?_) fun expression made => ?_
      · rw [Atom.typed, vectorLiteral_eq_error_iff]
        generalize first :: others = components
        constructor
        · rintro ⟨before, dimension, literal, after, rfl, distinct, repeated, rfl⟩
          exact .vector distinct repeated
        · intro faulty
          cases faulty with
          | vector distinct repeated => exact ⟨_, _, _, _, rfl, distinct, repeated, rfl⟩
      · exact vectorLiteral_type_wellFormed made
  | name name =>
      refine .single (fun failure => ?_) fun expression made => ?_
      · rw [Atom.typed]
        cases found : scope.find? name with
        | none =>
          constructor
          · rintro ⟨⟩
            exact .name found
          · rintro ⟨⟩
            rfl
        | some expression =>
            constructor
            · rintro ⟨⟩
            · rintro ⟨unbound⟩
              rw [found] at unbound
              cases unbound
      · rw [Atom.typed] at made
        cases found : scope.find? name with
        | none => rw [found] at made; cases made
        | some source =>
            rw [found] at made
            cases made
            obtain ⟨binding, member, rfl⟩ := Scope.exists_of_find? found
            rw [Expression.enclosed_type]
            exact bound binding member
  | group condition =>
      have inner := typedCondition_decides bound condition
      exact inner.bracketed

/-- The first faulty site of a term decides its typing. -/
theorem typedTerm_decides (bound : ∀ binding ∈ scope.bindings, binding.2.type.WellFormed)
    (term : OperatorTree Atom) :
    Decides (Site.Faulty scope limits) (termSites term) (typedTerm scope limits term) := by
  cases term with
  | leaf atom => exact Atom.typed_decides bound atom
  | node left operator right =>
      have ofLeft := typedTerm_decides bound left
      have ofRight := typedTerm_decides bound right
      exact .node ofLeft ofRight fun _ => Site.faulty_operator_iff

theorem typedCondition_decides (bound : ∀ binding ∈ scope.bindings, binding.2.type.WellFormed)
    (condition : OperatorTree (OperatorTree Atom)) :
    Decides (Site.Faulty scope limits) (conditionSites condition)
      (typedCondition scope limits condition) := by
  cases condition with
  | leaf term => exact typedTerm_decides bound term
  | node left operator right =>
      have ofLeft := typedCondition_decides bound left
      have ofRight := typedCondition_decides bound right
      exact .node ofLeft ofRight fun _ => Site.faulty_operator_iff

end

end Typing

/-- These failures come out of typing. -/
inductive Failure.IsTyping : Failure → Prop where
  | undefinedName (name : String) : IsTyping (.undefinedName name)
  | repeatedDimension (dimension : Symbol) : IsTyping (.repeatedDimension dimension)
  | limit (excess : Excess) : IsTyping (.limit excess)
  | undefinedOperator (operator : Operator) (left right : ValueType) :
      IsTyping (.calculation (.undefinedOperator operator left right))

theorem Site.Faulty.isTyping {scope : Scope} {limits : Limits} {site : Site} {failure : Failure}
    (faulty : site.Faulty scope limits failure) : failure.IsTyping := by
  cases faulty with
  | name => exact .undefinedName _
  | vector => exact .repeatedDimension _
  | dice => exact .limit _
  | operator => exact .undefinedOperator _ _ _

namespace Session

variable {sessionLimits : Limits} {session : Session}

/-- The types of all bound expressions are well formed. -/
theorem bindings_type_wellFormed (reachable : Reachable sessionLimits session) :
    ∀ binding ∈ session.scope.bindings, binding.2.type.WellFormed := by
  refine reachable.forall_bindings (fun expression => expression.type.WellFormed) ?_
  intro session same bound line answer answered
  obtain ⟨statement, -, typed⟩ := answer_eq_ok answered
  exact (typedCondition_decides bound statement.condition).formed _ typed

/-- In the scope of a session a condition has no type exactly when one of its sites is at fault, and
the first faulty site decides the failure. Nothing else fails: a literal that repeats no dimension
has its space and its vector, and operands with an operation convert to its operand type. -/
theorem typed_first_fault (reachable : Reachable sessionLimits session) (limits : Limits)
    (condition : Condition) :
    ((∃ failure, condition.typed session.scope limits = .error failure) ↔
      ∃ site ∈ condition.sites, ∃ failure, site.Faulty session.scope limits failure) ∧
    (∀ failure, condition.typed session.scope limits = .error failure ↔
      IsFirst (Site.Faulty session.scope limits) condition.sites failure) ∧
    (∀ failure, condition.typed session.scope limits = .error failure → failure.IsTyping) ∧
    (∀ components : List (Symbol × Literal), Symbol.Distinct components → ∃ space vector,
      Space.ofDimensions? (components.map literalType) = .ok space ∧
        SparseVector.ofComponents? space (components.map literalValue) = .ok vector) ∧
    ∀ (left right : Condition) (first second : Expression) (operator : Operator)
      (operation : Operation), left.typed session.scope limits = .ok first →
        right.typed session.scope limits = .ok second →
          Operation.find? operator first.type second.type = some operation →
            (∃ one, first.coerce? operation.operand = .ok one) ∧
              ∃ other, second.coerce? operation.operand = .ok other := by
  have bound := bindings_type_wellFormed reachable
  have decides (condition : Condition) : Decides (Site.Faulty session.scope limits) condition.sites
      (condition.typed session.scope limits) := typedCondition_decides bound condition
  refine ⟨?_, (decides condition).error_iff, fun failure failed => ?_, fun components distinct => ?_,
    fun left right first second operator operation ofLeft ofRight found => ?_⟩
  · simp only [(decides condition).error_iff]
    exact exists_isFirst_iff
  · obtain ⟨-, site, -, -, -, faulty⟩ := ((decides condition).error_iff failure).1 failed
    exact faulty.isTyping
  · exact ⟨_, _, ofDimensions?_literal distinct, ofComponents?_literal distinct⟩
  · exact Expression.exists_coerce?_of_find? ((decides left).formed first ofLeft)
      ((decides right).formed second ofRight) found

/-- A truth has no sum with a number, and this is found before an unbound name on the right. -/
theorem typed_first_fault_sum :
    let session := ((start .standard).run ['$', 'n', ':', '=', '1', '<', '2']).2
    let sum : Term := .node (.leaf (.name "n")) .add (.leaf (.integer 1))
    let condition : Condition := .node (.leaf sum) .equal (.leaf (.leaf (.name "m")))
    let failure : Failure := .calculation (.undefinedOperator .add .boolean .integer)
    Reachable .standard session ∧
      condition.typed session.scope .standard = .error failure ∧ failure.IsTyping ∧
      IsFirst (Site.Faulty session.scope .standard) condition.sites failure ∧
      ∃ site ∈ condition.sites, ∃ failure, site.Faulty session.scope .standard failure := by
  intro session sum condition failure
  have reachable : Reachable .standard session := .run .start _
  have failed : condition.typed session.scope .standard = .error failure := by
    simp only [condition, sum, session, failure]
    cbv
  obtain ⟨fails, first, kinds, -⟩ := typed_first_fault reachable .standard condition
  exact ⟨reachable, failed, kinds failure failed, (first failure).1 failed,
    fails.1 ⟨failure, failed⟩⟩

end Session

end DiceOdds
