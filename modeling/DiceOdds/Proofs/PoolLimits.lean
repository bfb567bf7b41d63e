import DiceOdds.Proofs.Construction
import DiceOdds.Proofs.OperandTyping
import DiceOdds.Proofs.Reading
import DiceOdds.Proofs.Run

/-
This file shows that every pool in a session is within the limits. Only the dice literals of a line
are held against them; what a name brings in was held against them before.
-/

namespace DiceOdds

/-- A pool is within the limits when none of its sizes exceeds its limit. -/
structure DicePool.Within (limits : Limits) (pool : DicePool) : Prop where
  dice : ∀ bound ∈ limits.dice, pool.count ≤ bound
  faces : ∀ bound ∈ limits.faces, pool.sides ≤ bound
  rolls : pool.kept ≠ none → ∀ bound ∈ limits.rolls, sortedRollCount pool.count pool.sides ≤ bound

namespace Limits

theorem check_eq_ok_iff (size : PoolSize) {found : Nat} {limit : Option Nat} :
    check size found limit = .ok () ↔ ∀ bound ∈ limit, found ≤ bound := by
  cases limit with
  | none => simp [check]
  | some bound =>
      rw [check]
      split
      · next exceeds => simp [exceeds]
      · next within => simpa using within

/-- Two checks in a row succeed when both do. -/
theorem both_eq_ok_iff {first second : Except Excess Unit} :
    (first >>= fun _ => second) = .ok () ↔ first = .ok () ∧ second = .ok () := by
  cases first <;> simp [bind, Except.bind]

theorem checkPool_eq_ok_iff {limits : Limits} {count sides : Int} :
    limits.checkPool count sides = .ok () ↔
      (∀ bound ∈ limits.dice, count ≤ bound) ∧ ∀ bound ∈ limits.faces, sides ≤ bound := by
  simp only [← Int.toNat_le]
  rw [← check_eq_ok_iff .diceCount, ← check_eq_ok_iff .dieSides]
  exact both_eq_ok_iff

theorem checkKeptPool_eq_ok_iff {limits : Limits} {count sides : Int} :
    limits.checkKeptPool count sides = .ok () ↔ limits.checkPool count sides = .ok () ∧
      ∀ bound ∈ limits.rolls, sortedRollCount count sides ≤ bound := by
  rw [← check_eq_ok_iff .sortedRolls]
  exact both_eq_ok_iff

/-- This is the check of a dice literal. -/
def checkLiteral (limits : Limits) (pool : DicePool) : Except Excess Unit :=
  match pool.kept with
  | none => limits.checkPool pool.count pool.sides
  | some _ => limits.checkKeptPool pool.count pool.sides

theorem checkLiteral_eq_ok_iff {limits : Limits} {pool : DicePool} :
    limits.checkLiteral pool = .ok () ↔ pool.Within limits := by
  obtain ⟨count, sides, kept⟩ := pool
  cases kept with
  | none =>
      refine checkPool_eq_ok_iff.trans ⟨fun ⟨dice, faces⟩ => ⟨dice, faces, by simp⟩, ?_⟩
      exact fun within => ⟨within.dice, within.faces⟩
  | some kept =>
      refine checkKeptPool_eq_ok_iff.trans ?_
      rw [checkPool_eq_ok_iff]
      constructor
      · exact fun ⟨⟨dice, faces⟩, rolls⟩ => ⟨dice, faces, fun _ => rolls⟩
      · exact fun within => ⟨⟨within.dice, within.faces⟩, within.rolls (by simp)⟩

end Limits

/-- A dice literal is its pool when this is within the limits, and otherwise exceeds one of them. -/
theorem poolLiteral_cases (limits : Limits) (pool : DicePool) :
    (pool.Within limits ∧ poolLiteral limits pool = .ok (.pool pool)) ∨
      (¬pool.Within limits ∧ ∃ excess, poolLiteral limits pool = .error (.limit excess)) := by
  rw [← Limits.checkLiteral_eq_ok_iff]
  have opened : poolLiteral limits pool =
      (limits.checkLiteral pool).mapError Failure.limit >>= fun _ => .ok (.pool pool) := rfl
  rw [opened]
  cases limits.checkLiteral pool with
  | ok => exact .inl ⟨rfl, rfl⟩
  | error excess => exact .inr ⟨by simp, excess, rfl⟩

/-- These are the pools inside of an expression from left to right. -/
def Expression.pools : Expression → List DicePool
  | .constant _ => []
  | .pool dice => [dice]
  | .binary left _ right => left.pools ++ right.pools
  | .bracketed inner => inner.pools
  | .converted source _ => source.pools

namespace Expression

/-- All pools of an expression within the limits are. -/
def Within (limits : Limits) (expression : Expression) : Prop :=
  ∀ pool ∈ expression.pools, pool.Within limits

theorem enclosed_pools (expression : Expression) :
    expression.enclosed.pools = expression.pools := by
  cases expression <;> rfl

theorem coerce?_pools {source expression : Expression} {target : ValueType}
    (made : source.coerce? target = .ok expression) : expression.pools = source.pools := by
  rcases coerce?_eq_ok made with ⟨-, rfl⟩ | ⟨-, rfl⟩ <;> rfl

theorem binary?_pools {left right expression : Expression} {operator : Operator}
    (made : left.binary? operator right = .ok expression) :
    expression.pools = left.pools ++ right.pools := by
  obtain ⟨operation, first, second, -, ofLeft, ofRight, rfl⟩ := binary?_eq_ok made
  rw [pools, coerce?_pools ofLeft, coerce?_pools ofRight]

end Expression

mutual

/-- These are the dice literals that are written in an operand, in groups as well. -/
def Operand.diceLiterals : Operand → List DicePool
  | .dice pool => [pool]
  | .group tree => treeDiceLiterals tree
  | .integer _ | .boolean _ | .symbol _ | .vector _ _ | .name _ => []

def treeDiceLiterals : OperatorTree Operand → List DicePool
  | .leaf operand => Operand.diceLiterals operand
  | .node left _ right => treeDiceLiterals left ++ treeDiceLiterals right

end

section Typing

variable {scope : Scope} {limits : Limits}

mutual

theorem Operand.typed_within (bound : ∀ binding ∈ scope.bindings, binding.2.Within limits)
    (operand : Operand) {expression : Expression}
    (typed : operand.typed scope limits = .ok expression) : expression.Within limits := by
  cases operand with
  | integer | boolean | symbol =>
      cases typed
      simp [Expression.Within, Expression.pools]
  | dice pool =>
      rcases poolLiteral_cases limits pool with ⟨within, made⟩ | ⟨-, excess, failed⟩
      · rw [Operand.typed, made] at typed
        cases typed
        simpa [Expression.Within, Expression.pools] using within
      · rw [Operand.typed, failed] at typed
        cases typed
  | vector first others =>
      have made := vectorLiteral_of_distinct (distinct_of_vectorLiteral typed)
      rw [Operand.typed, made] at typed
      cases typed
      simp [Expression.Within, Expression.pools]
  | name name =>
      obtain ⟨binding, member, rfl⟩ := Operand.typed_name typed
      rw [Expression.Within, Expression.enclosed_pools]
      exact bound binding member
  | group tree =>
      obtain ⟨inner, ofTree, made⟩ := Except.bind_eq_ok typed
      cases made
      have within := typedTree_within bound tree ofTree
      exact within

/-- Typing keeps within the limits when everything in scope is. -/
theorem typedTree_within (bound : ∀ binding ∈ scope.bindings, binding.2.Within limits)
    (tree : OperatorTree Operand) {expression : Expression}
    (typed : typedTree scope limits tree = .ok expression) : expression.Within limits := by
  cases tree with
  | leaf operand => exact Operand.typed_within bound operand typed
  | node left operator right =>
      obtain ⟨first, second, ofLeft, ofRight, made⟩ := typedTree_node typed
      rw [Expression.Within, Expression.binary?_pools made]
      exact List.forall_mem_append.2
        ⟨typedTree_within bound left ofLeft, typedTree_within bound right ofRight⟩

end

mutual

theorem Operand.exists_of_limit (operand : Operand) {excess : Excess}
    (failed : operand.typed scope limits = .error (.limit excess)) :
    ∃ pool ∈ operand.diceLiterals, ¬pool.Within limits := by
  cases operand with
  | integer | boolean | symbol => cases failed
  | dice pool =>
      rcases poolLiteral_cases limits pool with ⟨-, made⟩ | ⟨exceeds, -⟩
      · rw [Operand.typed, made] at failed
        cases failed
      · exact ⟨pool, List.mem_singleton.2 rfl, exceeds⟩
  | vector first others =>
      obtain ⟨dimension, impossible⟩ := vectorLiteral_eq_error failed
      cases impossible
  | name name =>
      rw [Operand.typed] at failed
      split at failed <;> cases failed
  | group tree =>
      rcases Except.bind_eq_error failed with ofTree | ⟨inner, -, impossible⟩
      · have found := treeDiceLiterals_of_limit tree ofTree
        exact found
      · cases impossible

/-- Typing exceeds a limit only for a dice literal that exceeds one. -/
theorem treeDiceLiterals_of_limit (tree : OperatorTree Operand) {excess : Excess}
    (failed : typedTree scope limits tree = .error (.limit excess)) :
    ∃ pool ∈ treeDiceLiterals tree, ¬pool.Within limits := by
  cases tree with
  | leaf operand => exact Operand.exists_of_limit operand failed
  | node left operator right =>
      rw [treeDiceLiterals]
      rcases Except.bind_eq_error failed with ofLeft | ⟨first, -, failed⟩
      · obtain ⟨pool, member, exceeds⟩ := treeDiceLiterals_of_limit left ofLeft
        exact ⟨pool, List.mem_append_left _ member, exceeds⟩
      · rcases Except.bind_eq_error failed with ofRight | ⟨second, -, made⟩
        · obtain ⟨pool, member, exceeds⟩ := treeDiceLiterals_of_limit right ofRight
          exact ⟨pool, List.mem_append_right _ member, exceeds⟩
        · obtain ⟨fault, -, impossible⟩ := Except.mapError_eq_error made
          cases impossible

end

end Typing

/-- This is the pool of a dice token. -/
def Token.pool? : Token → Option DicePool
  | .dice pool => some pool
  | _ => none

theorem treeDiceLiterals_eq (tree : OperatorTree Operand) :
    treeDiceLiterals tree =
      tree.first.diceLiterals ++ tree.rest.flatMap fun link => link.2.diceLiterals := by
  induction tree with
  | leaf operand => simp [treeDiceLiterals, OperatorTree.first, OperatorTree.rest]
  | node left operator right ofLeft ofRight =>
      rw [treeDiceLiterals, ofLeft, ofRight]
      simp [OperatorTree.first, OperatorTree.rest]

theorem SpellsComponents.pools {tokens : List Token} {components : List (Symbol × Literal)}
    (spells : SpellsComponents tokens components) : tokens.filterMap Token.pool? = [] := by
  have component {tokens : List Token} {component : Symbol × Literal}
      (spells : SpellsComponent tokens component) : tokens.filterMap Token.pool? = [] := by
    cases spells with
    | separate dimension literal => cases literal <;> rfl
    | marked dimension truth => rfl
  induction spells with
  | one spells => exact component spells
  | next before spells known =>
      rw [List.filterMap_append, known, List.filterMap_cons, component spells]
      rfl

mutual

theorem SpellsOperand.pools {tokens : List Token} {operand : Operand} :
    SpellsOperand tokens operand → tokens.filterMap Token.pool? = operand.diceLiterals
  | .integer number => rfl
  | .boolean truth => rfl
  | .symbol category => rfl
  | .dice pool => rfl
  | .name bound => rfl
  | .vector components => by
      rw [List.filterMap_cons, List.filterMap_append, components.pools]
      rfl
  | .group inner => by
      rw [List.filterMap_cons, List.filterMap_append, inner.pools, ← treeDiceLiterals_eq]
      exact List.append_nil _

/-- The dice literals of a sequence are its dice tokens in order. -/
theorem SpellsSequence.pools {tokens : List Token} {operand : Operand}
    {links : List (Operator × Operand)} : SpellsSequence tokens operand links →
      tokens.filterMap Token.pool? =
        operand.diceLiterals ++ links.flatMap fun link => link.2.diceLiterals
  | .last spells => by
      rw [spells.pools, List.flatMap_nil, List.append_nil]
  | .next spells rest => by
      rw [List.filterMap_append, spells.pools, List.filterMap_cons, rest.pools, List.flatMap_cons]
      rfl

end

namespace Session

theorem answer_within {session : Session}
    (bound : ∀ binding ∈ session.scope.bindings, binding.2.Within session.limits)
    {line : List Char} {answer : Answer} (answered : session.answer line = .ok answer) :
    answer.expression.Within session.limits := by
  obtain ⟨statement, -, typed⟩ := answer_eq_ok answered
  rw [Condition.typed_eq] at typed
  exact typedTree_within bound _ typed

/-- A line that exceeds a limit has a condition that does. -/
theorem answer_eq_limit {session : Session} {line : List Char} {excess : Excess}
    (failed : session.answer line = .error (.limit excess)) :
    ∃ statement, Statement.ofSource line = .ok statement ∧
      statement.condition.typed session.scope session.limits = .error (.limit excess) := by
  rcases Except.bind_eq_error failed with unread | ⟨statement, read, failed⟩
  · obtain ⟨error, -, impossible⟩ := Except.mapError_eq_error unread
    cases impossible
  · refine ⟨statement, Except.mapError_eq_ok read, ?_⟩
    rcases Except.bind_eq_error failed with untyped | ⟨expression, -, failed⟩
    · exact untyped
    · cases statement with
      | definition name condition => cases failed
      | expression condition =>
          rcases Except.bind_eq_error failed with unevaluated | ⟨outcomes, -, impossible⟩
          · obtain ⟨fault, -, impossible⟩ := Except.mapError_eq_error unevaluated
            cases impossible
          · cases impossible

theorem exists_dice_of_limit {session : Session} {line : List Char} {excess : Excess}
    (failed : session.answer line = .error (.limit excess)) :
    ∃ pool, .dice pool ∈ tokensOf line ∧ ¬pool.Within session.limits := by
  obtain ⟨statement, accepted, exceeded⟩ := answer_eq_limit failed
  rw [Condition.typed_eq] at exceeded
  obtain ⟨pool, written, exceeds⟩ := treeDiceLiterals_of_limit _ exceeded
  obtain ⟨tokens, split, spells, -⟩ := Statement.exists_spells_of_ofSource accepted
  rw [treeDiceLiterals_eq, ← spells.pools] at written
  obtain ⟨token, member, isDice⟩ := List.mem_filterMap.1 written
  refine ⟨pool, ?_, exceeds⟩
  rw [tokensOf, split]
  apply List.mem_append_right
  cases token <;> cases isDice
  exact member

/-- In every reachable session all bound and all answered pools are within the limits. A line
exceeds a limit only when a dice literal on this line does. -/
theorem reachable_within {limits : Limits} {session : Session}
    (reachable : Reachable limits session) :
    (∀ binding ∈ session.scope.bindings, ∀ pool ∈ binding.2.pools, pool.Within limits) ∧
      ∀ line,
        (∀ answer, session.answer line = .ok answer →
          ∀ pool ∈ answer.expression.pools, pool.Within limits) ∧
        ∀ excess, session.answer line = .error (.limit excess) →
          ∃ pool, .dice pool ∈ tokensOf line ∧ ¬pool.Within limits := by
  have bound : ∀ binding ∈ session.scope.bindings, binding.2.Within limits := by
    refine reachable.forall_bindings (Expression.Within limits) ?_
    rintro session rfl bound line answer answered
    exact answer_within bound answered
  obtain rfl := reachable.limits_eq
  refine ⟨bound, fun line => ⟨fun answer answered => ?_, fun excess failed => ?_⟩⟩
  · exact answer_within bound answered
  · exact exists_dice_of_limit failed

/-- A name brings in a pool within the limits, and a literal with too many dice exceeds one. -/
theorem reachable_within_names :
    let session := ((start .standard).run ['$', 'n', ':', '=', '2', 'd', '6']).2
    let sum : Expression :=
      .binary (.pool ⟨2, 6, none⟩) ⟨.add, .integer, .integer⟩ (.constant (.integer 1))
    Reachable .standard session ∧
      session.answer ['$', 'm', ':', '=', '$', 'n', '+', '1'] = .ok (.defined "m" sum) ∧
      (∀ pool ∈ sum.pools, pool.Within .standard) ∧
      ∃ pool, .dice pool ∈ tokensOf ['$', 'n', '+', '4', '1', 'd', '6'] ∧ ¬pool.Within .standard := by
  intro session sum
  have reachable : Reachable .standard session := .run .start _
  have answered : session.answer ['$', 'm', ':', '=', '$', 'n', '+', '1'] =
      .ok (.defined "m" sum) := by
    simp only [session, sum]
    cbv
  have exceeded : session.answer ['$', 'n', '+', '4', '1', 'd', '6'] =
      .error (.limit ⟨.diceCount, 41, 40⟩) := by
    simp only [session]
    cbv
  obtain ⟨-, lines⟩ := reachable_within reachable
  exact ⟨reachable, answered, (lines _).1 _ answered, (lines _).2 _ exceeded⟩

end Session

end DiceOdds
