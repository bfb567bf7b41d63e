import DiceOdds.Proofs.RollMeaning
import Mathlib

/-
This file shows that the operands of sums, products and comparisons can be exchanged, and that sums
and products can be regrouped, whatever conversions their operands need.
-/

namespace DiceOdds

namespace Operator

/-- This operator means the same when its operands are exchanged. -/
def mirrored? : Operator → Option Operator
  | .add => some .add
  | .multiply => some .multiply
  | .equal => some .equal
  | .and => some .and
  | .or => some .or
  | .less => some .greater
  | .greater => some .less
  | .subtract | .divide => none

variable {operator mirrored : Operator}

theorem mirrored?_symm (mirrors : operator.mirrored? = some mirrored) :
    mirrored.mirrored? = some operator := by
  cases operator <;> cases mirrors <;> rfl

theorem supports_mirrored (mirrors : operator.mirrored? = some mirrored) (type : ValueType) :
    operator.supports type = mirrored.supports type := by
  cases operator <;> cases mirrors <;> rcases type with _ | _ | _ | ⟨⟨dimensions⟩⟩ <;> rfl

/-- Of the arithmetic operators only sums and products can be exchanged. -/
theorem mirrored_of_arithmetic (arithmetic : operator.isArithmetic)
    (mirrors : operator.mirrored? = some mirrored) :
    mirrored = operator ∧ (operator = .add ∨ operator = .multiply) := by
  cases operator with
  | add => cases mirrors; exact ⟨rfl, .inl rfl⟩
  | multiply => cases mirrors; exact ⟨rfl, .inr rfl⟩
  | subtract | divide => cases mirrors
  | less | greater | equal | and | or => cases arithmetic

/-- Apart from quotients, an integer result is the exact one if this is representable. -/
theorem integerResult_eq_ok_iff_of_ne (notDivide : operator ≠ .divide) {left right result : Int} :
    operator.integerResult left right = .ok result ↔
      operator.exactResult? left right = some result ∧ Representable result := by
  simp [integerResult_eq_ok_iff, notDivide]

section SumOrProduct

variable (shape : operator = .add ∨ operator = .multiply)
include shape

theorem isArithmetic_of_shape : operator.isArithmetic := by
  rcases shape with rfl | rfl <;> rfl

theorem ne_divide_of_shape : operator ≠ .divide := by
  rcases shape with rfl | rfl <;> decide

theorem integerResult_zeros : operator.integerResult 0 0 = .ok 0 := by
  rcases shape with rfl | rfl <;> rfl

theorem integerResult_mirrored (left right : Int) :
    Agree (fun _ _ => True) Eq (operator.integerResult left right)
      (operator.integerResult right left) := by
  have same : operator.exactResult? left right = operator.exactResult? right left := by
    rcases shape with rfl | rfl
    · exact congrArg some (Int.add_comm left right)
    · exact congrArg some (Int.mul_comm left right)
  have notDivide := ne_divide_of_shape shape
  apply Agree.of_exists_iff
  · simp only [integerResult_eq_ok_iff_of_ne notDivide, same]
  · intro one other computed exchanged
    rw [integerResult_eq_ok_iff_of_ne notDivide] at computed exchanged
    rw [same, exchanged.1] at computed
    exact (Option.some.inj computed.1).symm

/-- Sums and products of two lists of leaves can be exchanged. -/
theorem leafResults_mirrored (left right : List Int) :
    Agree (fun _ _ => True) Eq (operator.leafResults left right)
      (operator.leafResults right left) := by
  induction left generalizing right with
  | nil => cases right <;> exact .ok rfl
  | cons one rest known =>
      cases right with
      | nil => exact .ok rfl
      | cons other others =>
          simp only [leafResults, List.zip_cons_cons, List.mapM_cons]
          apply (integerResult_mirrored shape one other).bind
          rintro value _ rfl
          apply (known others).bind
          rintro values _ rfl
          exact .ok rfl

/-- Exact sums and products can be regrouped. -/
theorem integerResult_regrouped {first second third inner whole other result : Int}
    (ofInner : operator.integerResult first second = .ok inner)
    (ofWhole : operator.integerResult inner third = .ok whole)
    (ofOther : operator.integerResult second third = .ok other)
    (ofResult : operator.integerResult first other = .ok result) : whole = result := by
  have notDivide := ne_divide_of_shape shape
  rw [integerResult_eq_ok_iff_of_ne notDivide] at ofInner ofWhole ofOther ofResult
  rcases shape with rfl | rfl
  · obtain rfl := Option.some.inj ofInner.1
    obtain rfl := Option.some.inj ofOther.1
    obtain rfl := Option.some.inj ofWhole.1
    obtain rfl := Option.some.inj ofResult.1
    exact Int.add_assoc first second third
  · obtain rfl := Option.some.inj ofInner.1
    obtain rfl := Option.some.inj ofOther.1
    obtain rfl := Option.some.inj ofWhole.1
    obtain rfl := Option.some.inj ofResult.1
    exact Int.mul_assoc first second third

end SumOrProduct

/-- Exchanged operands of one type have equal results or no results. -/
theorem compute_mirrored (mirrors : operator.mirrored? = some mirrored) {operand : ValueType}
    (supported : operator.supports operand) {left right : Value} (ofLeft : left.WellFormed)
    (ofRight : right.WellFormed) (typedLeft : left.type == operand)
    (typedRight : right.type == operand) :
    Agree (fun _ _ => True) (fun one other : Value => one == other)
      (operator.compute left right) (mirrored.compute right left) := by
  have types : (left.type == right.type) = true := BEq.trans typedLeft (BEq.symm typedRight)
  cases arithmetic : operator.isArithmetic with
  | true =>
      obtain ⟨rfl, shape⟩ := mirrored_of_arithmetic arithmetic mirrors
      have acts (value : Value) (typed : value.type == operand) :=
        actsOnLeaves_of_supports arithmetic value.type (supports_congr _ typed ▸ supported)
      have straight := acts left typedLeft left right ofLeft ofRight BEq.rfl (BEq.symm types)
      have exchanged := acts right typedRight right left ofRight ofLeft BEq.rfl types
      rw [compute_arithmetic arithmetic, compute_arithmetic arithmetic]
      have chain := (straight.trans (leafResults_mirrored shape left.leaves right.leaves)).trans
        exchanged.symm
      refine chain.imp (fun _ _ _ => trivial) ?_
      rintro one other ⟨leaves, ⟨_, first, rfl⟩, second⟩
      refine Value.beq_iff.2 ⟨?_, first.2.2.trans second.2.2.symm⟩
      exact BEq.trans (BEq.trans first.2.1 types) (BEq.symm second.2.1)
  | false =>
      have defined := isDefinedOn_of_supports supported
      cases operator with
      | add | multiply => cases arithmetic
      | subtract | divide => cases mirrors
      | equal =>
          cases mirrors
          have exchanged : (left == right) = (right == left) := BEq.comm
          rw [compute, compute, if_pos types, if_pos (BEq.symm types), exchanged]
          exact .ok BEq.rfl
      | less | greater =>
          cases mirrors
          obtain rfl : operand = .integer := by cases operand <;> first | rfl | cases defined
          obtain ⟨first, rfl⟩ := Value.eq_integer_of_type typedLeft
          obtain ⟨second, rfl⟩ := Value.eq_integer_of_type typedRight
          exact .ok BEq.rfl
      | and | or =>
          cases mirrors
          obtain rfl : operand = .boolean := by cases operand <;> first | rfl | cases defined
          obtain ⟨first, rfl⟩ := Value.eq_boolean_of_type typedLeft
          obtain ⟨second, rfl⟩ := Value.eq_boolean_of_type typedRight
          cases first <;> cases second <;> exact .ok BEq.rfl

end Operator

namespace Joins

variable {operation other : Operation} {left right whole exchanged : Except Fault Value}

/-- Exchanged operands have equal meanings or no meanings. -/
theorem mirrored (mirrors : operation.operator.mirrored? = some other.operator)
    (supported : operation.operator.supports operation.operand = true)
    (types : operation.operand == other.operand) (joins : Joins operation left right whole)
    (reversed : Joins other right left exchanged) :
    Agree (fun _ _ => True) (fun one other : Value => one == other) whole exchanged := by
  cases joins with
  | left fault => cases reversed <;> exact .error trivial
  | right value fault =>
      cases reversed
      exact .error trivial
  | both ofLeft ofRight =>
      cases reversed with
      | both alsoRight alsoLeft =>
          have sameLeft := ofLeft.beq alsoLeft types
          have sameRight := ofRight.beq alsoRight types
          have typedLeft := BEq.trans alsoLeft.typed (BEq.symm types)
          have typedRight := BEq.trans alsoRight.typed (BEq.symm types)
          have equal := Operator.compute_agree supported ofLeft.formed ofRight.formed
            alsoLeft.formed alsoRight.formed ofLeft.typed ofRight.typed sameLeft sameRight
          have turned := Operator.compute_mirrored mirrors supported alsoLeft.formed
            alsoRight.formed typedLeft typedRight
          refine (equal.trans turned).imp (fun _ _ _ => trivial) ?_
          rintro one result ⟨middle, sound, same⟩
          exact BEq.trans sound.same same

/-- A sum or a product of meanings is exact on the leaves at every path. -/
theorem leafAt (shape : operation.operator = .add ∨ operation.operator = .multiply)
    (supported : operation.operator.supports operation.operand = true) {result : Value}
    (joins : Joins operation left right (.ok result)) :
    ∃ first second, left = .ok first ∧ right = .ok second ∧ ∀ path,
      operation.operator.integerResult (first.leafAt path) (second.leafAt path) =
        .ok (result.leafAt path) := by
  generalize computed : Except.ok result = whole at joins
  cases joins with
  | left | right => cases computed
  | @both first second one next ofLeft ofRight =>
      refine ⟨first, second, rfl, rfl, fun path => ?_⟩
      rw [← ofLeft.leaves, ← ofRight.leaves]
      exact Operator.leafAt_compute (Operator.isArithmetic_of_shape shape)
        (Operator.integerResult_zeros shape) supported ofLeft.formed ofRight.formed ofLeft.typed
        ofRight.typed computed.symm path

end Joins

namespace Expression

variable {left middle right : Expression}

theorem exists_binary?_mirrored {operator mirrored : Operator} (ofLeft : left.type.WellFormed)
    (ofRight : right.type.WellFormed) (mirrors : operator.mirrored? = some mirrored) :
    (∃ expression, left.binary? operator right = .ok expression) →
      ∃ expression, right.binary? mirrored left = .ok expression := by
  rintro ⟨expression, made⟩
  obtain ⟨operation, -, -, found, -⟩ := binary?_eq_ok made
  obtain ⟨reversed, exchanged, -⟩ := Operation.find?_exchanged
    (Operator.supports_mirrored mirrors) ofLeft ofRight found
  exact exists_binary? ofRight ofLeft exchanged

/-- Exchanged operands can be built together, and they have matching distributions or none. -/
theorem binary?_mirrored (ofLeft : left.Built) (ofRight : right.Built) {operator mirrored : Operator}
    (mirrors : operator.mirrored? = some mirrored) :
    Agree (fun _ _ => True)
      (fun one other : Expression =>
        Agree (fun _ _ => True) Distribution.Matches one.evaluate other.evaluate)
      (left.binary? operator right) (right.binary? mirrored left) := by
  have typeLeft := ofLeft.sound.typed
  have typeRight := ofRight.sound.typed
  apply Agree.of_exists_iff
  · exact ⟨exists_binary?_mirrored typeLeft typeRight mirrors,
      exists_binary?_mirrored typeRight typeLeft (Operator.mirrored?_symm mirrors)⟩
  · intro one other made reversed
    obtain ⟨operation, found, split, valid, joins⟩ := binary?_rolls ofLeft ofRight made
    obtain ⟨second, exchanged, turned, alsoValid, also⟩ := binary?_rolls ofRight ofLeft reversed
    obtain ⟨same, supported, -⟩ := Operation.settled_of_find? found
    obtain ⟨alsoSame, -, -⟩ := Operation.settled_of_find? exchanged
    obtain ⟨again, refound, types⟩ := Operation.find?_exchanged
      (Operator.supports_mirrored mirrors) typeLeft typeRight found
    obtain rfl := Option.some.inj (exchanged.symm.trans refound)
    have pools : one.PoolsValid ↔ other.PoolsValid := by rw [valid, alsoValid, and_comm]
    refine (Built.binary ofLeft ofRight made).sound.agree (Built.binary ofRight ofLeft reversed).sound
      (split.trans ((Equiv.prodComm _ _).trans turned.symm)) pools fun rolled roll => ?_
    have straight := joins rolled roll
    have back := also (pools.1 rolled) (turned.symm (split roll).swap)
    rw [Equiv.apply_symm_apply] at back
    exact straight.mirrored (by rw [same, alsoSame]; exact mirrors) supported types back

/-- On every roll the leaves of a sum or a product are those of its operands, added or multiplied. -/
theorem binary?_leaves {operator : Operator} (shape : operator = .add ∨ operator = .multiply)
    (ofLeft : left.Built) (ofRight : right.Built) {expression : Expression}
    (made : left.binary? operator right = .ok expression) :
    ∃ split : expression.Roll ≃ left.Roll × right.Roll,
      (expression.PoolsValid → left.PoolsValid ∧ right.PoolsValid) ∧
      (expression.PoolsValid → ∀ roll result, expression.meaning roll = .ok result →
        ∃ first second, left.meaning (split roll).1 = .ok first ∧
          right.meaning (split roll).2 = .ok second ∧ ∀ path,
            operator.integerResult (first.leafAt path) (second.leafAt path) =
              .ok (result.leafAt path)) := by
  obtain ⟨operation, found, split, valid, joins⟩ := binary?_rolls ofLeft ofRight made
  obtain ⟨rfl, supported, -⟩ := Operation.settled_of_find? found
  refine ⟨split, valid.1, fun pools roll result means => ?_⟩
  have joined := joins pools roll
  rw [means] at joined
  exact joined.leafAt shape supported

section Regrouping

variable {operator : Operator} (shape : operator = .add ∨ operator = .multiply)
  (ofLeft : left.Built) (ofMiddle : middle.Built) (ofRight : right.Built)
include shape ofLeft ofMiddle ofRight

/-- Both groups of three operands have matching distributions when they have distributions at all. -/
theorem regrouped_matches {first whole second other : Expression}
    (madeFirst : left.binary? operator middle = .ok first)
    (madeWhole : first.binary? operator right = .ok whole)
    (madeSecond : middle.binary? operator right = .ok second)
    (madeOther : left.binary? operator second = .ok other) {outcomes others : Distribution Value}
    (evaluated : whole.evaluate = .ok outcomes) (alsoEvaluated : other.evaluate = .ok others) :
    outcomes.Matches others := by
  have ofFirst := Built.binary ofLeft ofMiddle madeFirst
  have ofWhole := Built.binary ofFirst ofRight madeWhole
  have ofSecond := Built.binary ofMiddle ofRight madeSecond
  have ofOther := Built.binary ofLeft ofSecond madeOther
  have arithmetic := Operator.isArithmetic_of_shape shape
  have types := regrouped_type ofLeft.sound.typed ofMiddle.sound.typed ofRight.sound.typed
    arithmetic madeFirst madeWhole madeSecond madeOther
  obtain ⟨splitFirst, -, meansFirst⟩ := binary?_leaves shape ofLeft ofMiddle madeFirst
  obtain ⟨splitWhole, poolsWhole, meansWhole⟩ := binary?_leaves shape ofFirst ofRight madeWhole
  obtain ⟨splitSecond, -, meansSecond⟩ := binary?_leaves shape ofMiddle ofRight madeSecond
  obtain ⟨splitOther, poolsOther, meansOther⟩ := binary?_leaves shape ofLeft ofSecond madeOther
  have validWhole := (ofWhole.sound.law outcomes evaluated).1
  have validOther := (ofOther.sound.law others alsoEvaluated).1
  let renamed : whole.Roll ≃ other.Roll :=
    (splitWhole.trans (splitFirst.prodCongr (Equiv.refl _))).trans <|
      (Equiv.prodAssoc _ _ _).trans <|
        ((Equiv.refl _).prodCongr splitSecond.symm).trans splitOther.symm
  refine ofWhole.sound.matches_of_renamed ofOther.sound renamed ?_ evaluated alsoEvaluated
  intro roll one result means alsoMeans
  obtain ⟨inner, third, meansInner, meansThird, wholeLeaves⟩ := meansWhole validWhole roll one means
  obtain ⟨first, second, meansLeft, meansMiddle, firstLeaves⟩ :=
    meansFirst (poolsWhole validWhole).1 _ inner meansInner
  obtain ⟨alsoFirst, rest, againLeft, meansRest, otherLeaves⟩ :=
    meansOther validOther _ result alsoMeans
  obtain ⟨alsoSecond, alsoThird, againMiddle, againRight, secondLeaves⟩ :=
    meansSecond (poolsOther validOther).2 _ rest meansRest
  -- Both groups roll the three operands alike.
  have rolled : splitOther (renamed roll) = ((splitFirst (splitWhole roll).1).1,
      splitSecond.symm ((splitFirst (splitWhole roll).1).2, (splitWhole roll).2)) :=
    splitOther.apply_symm_apply _
  rw [rolled] at againLeft againMiddle againRight
  rw [Equiv.apply_symm_apply] at againMiddle againRight
  obtain rfl := Except.ok.inj (meansLeft.symm.trans againLeft)
  obtain rfl := Except.ok.inj (meansMiddle.symm.trans againMiddle)
  obtain rfl := Except.ok.inj (meansThird.symm.trans againRight)
  obtain ⟨formedOne, typedOne⟩ := ofWhole.consistent validWhole roll one means
  obtain ⟨formedResult, typedResult⟩ := ofOther.consistent validOther _ result alsoMeans
  apply Value.beq_of_leafAt formedOne formedResult
  · exact BEq.trans (BEq.trans typedOne types) (BEq.symm typedResult)
  · intro path _
    exact Operator.integerResult_regrouped shape (firstLeaves path) (wholeLeaves path)
      (secondLeaves path) (otherLeaves path)

end Regrouping

/-- Operands can be exchanged and regrouped. With the mirrored operator, exchanged operands can be
built together and are then evaluated to equal distributions or not at all. The two groups of a sum or
of a product can be built together, they have equal types, and their distributions are equal when both
have one. -/
theorem binary?_exchanged_regrouped (ofLeft : left.Built) (ofMiddle : middle.Built)
    (ofRight : right.Built) :
    (∀ operator mirrored : Operator, operator.mirrored? = some mirrored →
      Agree (fun _ _ => True)
        (fun one other : Expression =>
          Agree (fun _ _ => True) Distribution.Matches one.evaluate other.evaluate)
        (left.binary? operator right) (right.binary? mirrored left)) ∧
    ∀ operator : Operator, operator = .add ∨ operator = .multiply →
      Agree (fun _ _ => True)
        (fun whole other : Expression => whole.type == other.type ∧
          ∀ outcomes others, whole.evaluate = .ok outcomes → other.evaluate = .ok others →
            outcomes.Matches others)
        (do
          let inner ← left.binary? operator middle
          inner.binary? operator right)
        (do
          let inner ← middle.binary? operator right
          left.binary? operator inner) := by
  refine ⟨fun operator mirrored mirrors => binary?_mirrored ofLeft ofRight mirrors,
    fun operator shape => ?_⟩
  have typeLeft := ofLeft.sound.typed
  have typeMiddle := ofMiddle.sound.typed
  have typeRight := ofRight.sound.typed
  have arithmetic := Operator.isArithmetic_of_shape shape
  apply Agree.of_exists_iff
  · have groups := (exists_leftGroup_iff typeLeft typeMiddle typeRight arithmetic).trans
      (exists_rightGroup_iff typeLeft typeMiddle typeRight arithmetic).symm
    constructor
    · rintro ⟨whole, made⟩
      obtain ⟨inner, madeInner, madeWhole⟩ := Except.bind_eq_ok made
      obtain ⟨second, madeSecond, other, madeOther⟩ := groups.1 ⟨inner, madeInner, whole, madeWhole⟩
      exact ⟨other, by rw [madeSecond]; exact madeOther⟩
    · rintro ⟨other, made⟩
      obtain ⟨inner, madeInner, madeOther⟩ := Except.bind_eq_ok made
      obtain ⟨first, madeFirst, whole, madeWhole⟩ := groups.2 ⟨inner, madeInner, other, madeOther⟩
      exact ⟨whole, by rw [madeFirst]; exact madeWhole⟩
  · intro whole other made alsoMade
    obtain ⟨first, madeFirst, madeWhole⟩ := Except.bind_eq_ok made
    obtain ⟨second, madeSecond, madeOther⟩ := Except.bind_eq_ok alsoMade
    refine ⟨regrouped_type typeLeft typeMiddle typeRight arithmetic madeFirst madeWhole madeSecond
      madeOther, fun outcomes others evaluated alsoEvaluated => ?_⟩
    exact regrouped_matches shape ofLeft ofMiddle ofRight madeFirst madeWhole madeSecond madeOther
      evaluated alsoEvaluated

/-- The two groups of a sum of three symbols convert different operands, and a sum of two symbols does
not depend on their order. -/
theorem binary?_exchanged_regrouped_symbols :
    let axis (name : String) : Symbol × ValueType := (⟨name, .tick⟩, .integer)
    let unit (name : String) : Expression := .constant (.symbol ⟨name, .tick⟩)
    let inner : ValueType := .vector ⟨[axis "a", axis "b"]⟩
    let later : ValueType := .vector ⟨[axis "b", axis "c"]⟩
    let all : ValueType := .vector ⟨[axis "a", axis "b", axis "c"]⟩
    let first : Expression :=
      .binary ((unit "a").converted inner) ⟨.add, inner, inner⟩ ((unit "b").converted inner)
    let second : Expression :=
      .binary ((unit "b").converted later) ⟨.add, later, later⟩ ((unit "c").converted later)
    let whole : Expression :=
      .binary (first.converted all) ⟨.add, all, all⟩ ((unit "c").converted all)
    let other : Expression :=
      .binary ((unit "a").converted all) ⟨.add, all, all⟩ (second.converted all)
    (do
      let inner ← (unit "a").binary? .add (unit "b")
      inner.binary? .add (unit "c")) = .ok whole ∧
    (do
      let inner ← (unit "b").binary? .add (unit "c")
      (unit "a").binary? .add inner) = .ok other ∧
    (∃ outcomes others, whole.evaluate = .ok outcomes ∧ other.evaluate = .ok others ∧
      outcomes.Matches others) ∧
    ∃ reversed, (unit "b").binary? .add (unit "a") = .ok reversed ∧
      Agree (fun _ _ => True) Distribution.Matches first.evaluate reversed.evaluate := by
  intro axis unit inner later all first second whole other
  have built (name : String) : (unit name).Built := .constant (.symbol _)
  have made : (do
      let inner ← (unit "a").binary? .add (unit "b")
      inner.binary? .add (unit "c")) = .ok whole := by
    cbv
  have alsoMade : (do
      let inner ← (unit "b").binary? .add (unit "c")
      (unit "a").binary? .add inner) = .ok other := by
    cbv
  have summed : (unit "a").binary? .add (unit "b") = .ok first := by
    cbv
  obtain ⟨outcomes, evaluated⟩ : ∃ outcomes, whole.evaluate = .ok outcomes := ⟨_, by cbv⟩
  obtain ⟨others, alsoEvaluated⟩ : ∃ others, other.evaluate = .ok others := ⟨_, by cbv⟩
  obtain ⟨-, regrouped⟩ := binary?_exchanged_regrouped (built "a") (built "b") (built "c")
  obtain ⟨swapped, -⟩ := binary?_exchanged_regrouped (built "a") (built "c") (built "b")
  refine ⟨made, alsoMade, ⟨outcomes, others, evaluated, alsoEvaluated, ?_⟩, ?_⟩
  · have related := regrouped .add (.inl rfl)
    rw [made, alsoMade] at related
    cases related with
    | ok both => exact both.2 outcomes others evaluated alsoEvaluated
  · have related := swapped .add .add rfl
    rw [summed] at related
    cases reversed : (unit "b").binary? .add (unit "a") with
    | error fault => rw [reversed] at related; cases related
    | ok sum =>
        rw [reversed] at related
        cases related with
        | ok both => exact ⟨sum, rfl, both⟩

end Expression

end DiceOdds
