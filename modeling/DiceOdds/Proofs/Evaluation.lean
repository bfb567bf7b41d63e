import DiceOdds.Expression.Evaluation
import DiceOdds.Proofs.Construction
import DiceOdds.Proofs.PoolLaw

/-
This file gives an expression its meaning on a single roll of all its dice, and shows that
evaluation is the law of this meaning when all rolls are equally likely.
-/

namespace DiceOdds

open Finset

namespace Expression

/-- A roll of an expression rolls every pool independently, also when a pool is written twice. -/
def Roll : Expression → Type
  | .constant _ => Unit
  | .pool dice => dice.Roll
  | .binary left _ right => left.Roll × right.Roll
  | .bracketed inner => inner.Roll
  | .converted source _ => source.Roll

/-- There are finitely many rolls. -/
@[reducible] def rolls : (expression : Expression) → Fintype expression.Roll
  | .constant _ => inferInstanceAs (Fintype Unit)
  | .pool dice => inferInstanceAs (Fintype dice.Roll)
  | .binary left _ right =>
      have := left.rolls
      have := right.rolls
      inferInstanceAs (Fintype (left.Roll × right.Roll))
  | .bracketed inner => inner.rolls
  | .converted source _ => source.rolls

instance (expression : Expression) : Fintype expression.Roll :=
  expression.rolls

/-- This is what an expression yields on a single roll. -/
def meaning : (expression : Expression) → expression.Roll → Except Fault Value
  | .constant value, _ => .ok value
  | .pool dice, roll => .ok (.integer (dice.rollSum roll))
  | .binary left operation right, roll => do
      let first ← left.meaning roll.1
      let second ← right.meaning roll.2
      operation.compute first second
  | .bracketed inner, roll => inner.meaning roll
  | .converted source target, roll => do
      let value ← source.meaning roll
      value.convert? target

/-- Every pool of a valid expression is valid. -/
def PoolsValid : Expression → Prop
  | .constant _ => True
  | .pool dice => dice.Valid
  | .binary left _ right => left.PoolsValid ∧ right.PoolsValid
  | .bracketed inner => inner.PoolsValid
  | .converted source _ => source.PoolsValid

/-- A roll yields a value when it has a meaning that equals the value. -/
def yields (expression : Expression) (value : Value) (roll : expression.Roll) : Bool :=
  match expression.meaning roll with
  | .ok found => found == value
  | .error _ => false

/-- On every roll the expression has a meaning. -/
def Defined (expression : Expression) : Prop :=
  expression.PoolsValid ∧ ∀ roll, ∃ value, expression.meaning roll = .ok value

/-- The sides of a valid pool can be rolled. -/
theorem PoolsValid.nonempty {expression : Expression} (valid : expression.PoolsValid) :
    Nonempty expression.Roll := by
  induction expression with
  | constant value => exact ⟨()⟩
  | pool dice =>
      have sided : 0 < dice.sides.toNat := by
        have := DicePool.Valid.sides valid
        omega
      exact ⟨fun _ => ⟨0, sided⟩⟩
  | binary left operation right ofLeft ofRight =>
      obtain ⟨first⟩ := ofLeft valid.1
      obtain ⟨second⟩ := ofRight valid.2
      exact ⟨(first, second)⟩
  | bracketed inner known => exact known valid
  | converted source target known => exact known valid

theorem Defined.source {source : Expression} {target : ValueType}
    (defined : (converted source target).Defined) : source.Defined := by
  refine ⟨defined.1, fun roll => ?_⟩
  obtain ⟨value, means⟩ := defined.2 roll
  obtain ⟨before, meant, -⟩ := Except.bind_eq_ok means
  exact ⟨before, meant⟩

/-- Any roll of the right operand completes a roll of the left one. -/
theorem Defined.left {left right : Expression} {operation : Operation}
    (defined : (binary left operation right).Defined) : left.Defined := by
  obtain ⟨other⟩ := defined.1.2.nonempty
  refine ⟨defined.1.1, fun roll => ?_⟩
  obtain ⟨value, means⟩ := defined.2 (roll, other)
  obtain ⟨before, meant, -⟩ := Except.bind_eq_ok means
  exact ⟨before, meant⟩

theorem Defined.right {left right : Expression} {operation : Operation}
    (defined : (binary left operation right).Defined) : right.Defined := by
  obtain ⟨other⟩ := defined.1.1.nonempty
  refine ⟨defined.1.2, fun roll => ?_⟩
  obtain ⟨value, means⟩ := defined.2 (other, roll)
  obtain ⟨_, _, later⟩ := Except.bind_eq_ok means
  obtain ⟨before, meant, -⟩ := Except.bind_eq_ok later
  exact ⟨before, meant⟩

/-- A roll realizes a value when its meaning equals the value, and both are of the type of the
expression. -/
def Realizes (expression : Expression) (roll : expression.Roll) (value : Value) : Prop :=
  ∃ found, expression.meaning roll = .ok found ∧ found == value ∧ found.WellFormed ∧
    value.WellFormed ∧ value.type == expression.type

/-- Evaluation is sound when it yields the law of the meaning or a fault of the calculation. -/
structure Sound (expression : Expression) : Prop where
  typed : expression.type.WellFormed
  law : ∀ outcomes, expression.evaluate = .ok outcomes → expression.PoolsValid ∧
    ∃ quantity : expression.Roll → Value, IsLaw outcomes quantity ∧
      ∀ roll, expression.Realizes roll (quantity roll)
  fault : ∀ fault, expression.evaluate = .error fault →
    fault.IsCalculation ∧ ¬expression.Defined

/-- Results that equal the meaning of every roll are still realized once they are merged. -/
theorem realizes_of_merges {expression : Expression} {means found merged : expression.Roll → Value}
    (merges : Merges found merged) (meant : ∀ roll, expression.meaning roll = .ok (means roll))
    (results : ∀ roll, SoundResults expression.type (means roll) (found roll))
    (roll : expression.Roll) :
    expression.Realizes roll (merged roll) := by
  obtain ⟨equal, formed, -, typed⟩ := results roll
  have same : (found roll == merged roll) = true := Value.beq_iff_compare.2 (merges.same roll)
  obtain ⟨other, chosen⟩ := merges.chosen roll
  refine ⟨means roll, meant roll, BEq.trans equal same, formed, ?_, ?_⟩
  · rw [chosen]
    exact (results other).ofSecond
  · exact BEq.trans (BEq.symm (Value.beq_iff.1 same).1) typed

theorem sound_constant {value : Value} (formed : value.WellFormed) :
    Sound (.constant value) where
  typed := formed.type_wellFormed
  law := by
    rintro _ ⟨⟩
    exact ⟨trivial, fun _ => value, IsLaw.certain value,
      fun _ => ⟨value, rfl, BEq.rfl, formed, formed, BEq.rfl⟩⟩
  fault := by rintro _ ⟨⟩

theorem sound_pool (dice : DicePool) : Sound (.pool dice) where
  typed := .integer
  law := by
    intro outcomes evaluated
    obtain ⟨sums, made, mapped⟩ := Except.bind_eq_ok evaluated
    cases mapped
    have valid := DicePool.valid_of_distribution made
    obtain ⟨_, again, law⟩ := valid.law
    rw [made] at again
    cases again
    obtain ⟨merged, lawful, same⟩ := law.map Value.integer
    have formed (roll : dice.Roll) : (Value.integer (dice.rollSum roll)).WellFormed :=
      .integer _ (valid.rollSum_representable roll)
    exact ⟨valid, merged, lawful, realizes_of_merges same (fun _ => rfl) fun roll =>
      ⟨BEq.rfl, formed roll, formed roll, BEq.rfl⟩⟩
  fault := by
    intro fault evaluated
    rcases Except.bind_eq_error evaluated with failed | ⟨sums, made, impossible⟩
    · refine ⟨DicePool.distribution_error failed, fun defined => ?_⟩
      obtain ⟨sums, made, -⟩ := DicePool.Valid.law defined.1
      rw [made] at failed
      cases failed
    · cases impossible

theorem Sound.bracketed {inner : Expression} (sound : inner.Sound) : Sound (.bracketed inner) :=
  ⟨sound.typed, sound.law, sound.fault⟩

/-- A conversion that the types allow succeeds on what a roll realizes, and on its meaning. -/
theorem converts_of_realizes {source : Expression} {target : ValueType}
    (ofTarget : target.WellFormed) (converts : source.type.convertsTo target = true)
    {roll : source.Roll} {value : Value} (realizes : source.Realizes roll value) :
    ∃ means image, (Expression.converted source target).meaning roll = .ok means ∧
      value.convert? target = .ok image ∧ SoundResults target means image := by
  obtain ⟨found, meant, agrees, ofFound, ofValue, typed⟩ := realizes
  have foundConverts : found.type.convertsTo target = true := by
    rw [ValueType.convertsTo_congr (BEq.trans (Value.beq_iff.1 agrees).1 typed)]
    exact converts
  have valueConverts : value.type.convertsTo target = true := by
    rw [ValueType.convertsTo_congr typed]
    exact converts
  obtain ⟨means, made, formed, -⟩ := Value.convert?_ok ofFound ofTarget foundConverts
  obtain ⟨image, alsoMade, alsoFormed, ofType⟩ := Value.convert?_ok ofValue ofTarget valueConverts
  obtain ⟨again, remade, equal⟩ :=
    Value.convert?_congr ofTarget ofFound ofValue agrees foundConverts made
  obtain rfl := Except.ok.inj (remade.symm.trans alsoMade)
  refine ⟨means, again, ?_, alsoMade, equal, formed, alsoFormed, ofType⟩
  change (source.meaning roll >>= fun value => value.convert? target) = .ok means
  rw [meant]
  exact made

theorem Sound.converted {source : Expression} {target : ValueType} (sound : source.Sound)
    (ofTarget : target.WellFormed) (converts : source.type.convertsTo target = true) :
    Sound (.converted source target) where
  typed := ofTarget
  law := by
    intro outcomes evaluated
    obtain ⟨before, ofSource, converted⟩ := Except.bind_eq_ok evaluated
    obtain ⟨valid, quantity, law, realizes⟩ := sound.law before ofSource
    obtain ⟨image, merged, imaged, lawful, merges⟩ := law.tryMap converted
    have results (roll : source.Roll) : ∃ means,
        (Expression.converted source target).meaning roll = .ok means ∧
          SoundResults target means (image roll) := by
      obtain ⟨means, own, meant, made, results⟩ :=
        converts_of_realizes ofTarget converts (realizes roll)
      obtain rfl := Except.ok.inj (made.symm.trans (imaged roll))
      exact ⟨means, meant, results⟩
    choose means meant facts using results
    exact ⟨valid, merged, lawful, realizes_of_merges merges meant facts⟩
  fault := by
    intro fault evaluated
    rcases Except.bind_eq_error evaluated with failed | ⟨before, ofSource, failed⟩
    · obtain ⟨calculation, undefined⟩ := sound.fault fault failed
      exact ⟨calculation, fun defined => undefined defined.source⟩
    · obtain ⟨valid, quantity, law, realizes⟩ := sound.law before ofSource
      obtain ⟨roll, fails⟩ := law.tryMap_error failed
      obtain ⟨means, image, -, made, -⟩ := converts_of_realizes ofTarget converts (realizes roll)
      rw [made] at fails
      cases fails

/-- The meaning of a binary expression agrees with what its operation computes on realized operands.
-/
theorem agree_of_realizes {left right : Expression} {operation : Operation}
    (supported : operation.operator.supports operation.operand = true)
    (typedLeft : left.type == operation.operand) (typedRight : right.type == operation.operand)
    {first : left.Roll} {second : right.Roll} {one other : Value} (ofLeft : left.Realizes first one)
    (ofRight : right.Realizes second other) :
    Agree (fun first second => first = second ∧ first.IsCalculation)
      (SoundResults (operation.operator.resultType operation.operand))
      ((Expression.binary left operation right).meaning (first, second))
      (operation.compute one other) := by
  obtain ⟨found, means, agrees, ofFound, ofOne, typed⟩ := ofLeft
  obtain ⟨also, alsoMeans, alsoAgrees, ofAlso, ofOther, alsoTyped⟩ := ofRight
  have meant : (Expression.binary left operation right).meaning (first, second) =
      operation.compute found also := by
    change (left.meaning first >>= fun value => right.meaning second >>= fun next =>
      operation.compute value next) = _
    rw [means, alsoMeans]
    rfl
  rw [meant]
  exact Operator.compute_agree supported ofFound ofAlso ofOne ofOther
    (BEq.trans (BEq.trans (Value.beq_iff.1 agrees).1 typed) typedLeft)
    (BEq.trans (BEq.trans (Value.beq_iff.1 alsoAgrees).1 alsoTyped) typedRight) agrees alsoAgrees

/-- Operands of the operand type are combined soundly, one pair of rolls at a time. -/
theorem Sound.binary {left right : Expression} {operation : Operation} (ofLeft : left.Sound)
    (ofRight : right.Sound) (ofOperand : operation.operand.WellFormed)
    (supported : operation.operator.supports operation.operand = true)
    (result : operation.result = operation.operator.resultType operation.operand)
    (typedLeft : left.type == operation.operand) (typedRight : right.type == operation.operand) :
    Sound (.binary left operation right) where
  typed := by
    rw [type, result, Operator.resultType]
    split
    · exact ofOperand
    · exact .boolean
  law := by
    intro outcomes evaluated
    obtain ⟨first, evaluatedLeft, evaluated⟩ := Except.bind_eq_ok evaluated
    obtain ⟨second, evaluatedRight, joined⟩ := Except.bind_eq_ok evaluated
    obtain ⟨validLeft, lefts, lawLeft, realizesLeft⟩ := ofLeft.law first evaluatedLeft
    obtain ⟨validRight, rights, lawRight, realizesRight⟩ := ofRight.law second evaluatedRight
    obtain ⟨image, merged, imaged, lawful, merges⟩ := lawLeft.tryJoin lawRight joined
    have results (roll : left.Roll × right.Roll) : ∃ means,
        (Expression.binary left operation right).meaning roll = .ok means ∧
          SoundResults operation.result means (image roll) := by
      have agree := agree_of_realizes supported typedLeft typedRight (realizesLeft roll.1)
        (realizesRight roll.2)
      rw [imaged roll] at agree
      obtain ⟨means, meant, sound⟩ := agree.exists_of_ok
      exact ⟨means, meant, result ▸ sound⟩
    choose means meant facts using results
    exact ⟨⟨validLeft, validRight⟩, merged, lawful, realizes_of_merges merges meant facts⟩
  fault := by
    intro fault evaluated
    rcases Except.bind_eq_error evaluated with failed | ⟨first, evaluatedLeft, evaluated⟩
    · obtain ⟨calculation, undefined⟩ := ofLeft.fault fault failed
      exact ⟨calculation, fun defined => undefined defined.left⟩
    · rcases Except.bind_eq_error evaluated with failed | ⟨second, evaluatedRight, joined⟩
      · obtain ⟨calculation, undefined⟩ := ofRight.fault fault failed
        exact ⟨calculation, fun defined => undefined defined.right⟩
      · obtain ⟨validLeft, lefts, lawLeft, realizesLeft⟩ := ofLeft.law first evaluatedLeft
        obtain ⟨validRight, rights, lawRight, realizesRight⟩ := ofRight.law second evaluatedRight
        obtain ⟨roll, fails⟩ := lawLeft.tryJoin_error lawRight joined
        have agree := agree_of_realizes supported typedLeft typedRight (realizesLeft roll.1)
          (realizesRight roll.2)
        rw [fails] at agree
        obtain ⟨own, failed, rfl, calculation⟩ := agree.exists_of_error
        refine ⟨calculation, fun defined => ?_⟩
        obtain ⟨value, means⟩ := defined.2 roll
        rw [failed] at means
        cases means

theorem Sound.coerced {source expression : Expression} {target : ValueType} (sound : source.Sound)
    (ofTarget : target.WellFormed) (made : source.coerce? target = .ok expression) :
    expression.Sound := by
  rcases coerce?_eq_ok made with ⟨-, rfl⟩ | ⟨converts, rfl⟩
  · exact sound
  · exact sound.converted ofTarget converts

/-- Evaluation is sound on every tree that the constructors build. -/
theorem Built.sound {expression : Expression} (built : expression.Built) : expression.Sound := by
  induction built with
  | constant built => exact sound_constant built.wellFormed
  | pool dice => exact sound_pool dice
  | bracketed built known => exact known.bracketed
  | converted built ofTarget made known =>
      obtain ⟨converts, rfl⟩ := convert?_eq_ok made
      exact known.converted ofTarget.wellFormed converts
  | coerced built ofTarget made known => exact known.coerced ofTarget.wellFormed made
  | binary ofLeft ofRight made knownLeft knownRight =>
      obtain ⟨operation, first, second, found, coercedLeft, coercedRight, rfl⟩ :=
        binary?_eq_ok made
      obtain ⟨common, -, -⟩ := Operation.find?_eq_some found
      obtain ⟨-, supports, result⟩ := Operation.settled_of_find? found
      have ofOperand := ValueType.common?_wellFormed knownLeft.typed knownRight.typed common
      exact (knownLeft.coerced ofOperand coercedLeft).binary
        (knownRight.coerced ofOperand coercedRight) ofOperand supports result
        (coerce?_type coercedLeft) (coerce?_type coercedRight)

/-- Sound evaluation succeeds exactly on defined expressions. -/
theorem Sound.exists_evaluate_iff {expression : Expression} (sound : expression.Sound) :
    (∃ outcomes, expression.evaluate = .ok outcomes) ↔ expression.Defined := by
  constructor
  · rintro ⟨outcomes, evaluated⟩
    obtain ⟨valid, quantity, -, realizes⟩ := sound.law outcomes evaluated
    refine ⟨valid, fun roll => ?_⟩
    obtain ⟨found, means, -⟩ := realizes roll
    exact ⟨found, means⟩
  · intro defined
    cases evaluated : expression.evaluate with
    | ok outcomes => exact ⟨outcomes, rfl⟩
    | error fault => exact absurd defined (sound.fault fault evaluated).2

/-- The rolls that realize a value are those that yield its equals. -/
theorem yields_of_realizes {expression : Expression} {roll : expression.Roll} {own : Value}
    (realizes : expression.Realizes roll own) (value : Value) :
    expression.yields value roll = true ↔ compare own value = .eq := by
  obtain ⟨found, means, agrees, -⟩ := realizes
  rw [yields, means, ← Value.beq_iff_compare]
  exact Bool.eq_iff_iff.1 (BEq.congr_left agrees)

/-- Evaluation is exact. It succeeds when all pools are valid and every roll has a meaning, and then
its outcomes ascend and are the values that some roll yields. The look-up finds for every value the
share of the rolls that yield it, and the event of an outcome has this share too. -/
theorem evaluate_exact {expression : Expression} (built : expression.Built) :
    ((∃ outcomes, expression.evaluate = .ok outcomes) ↔
      expression.PoolsValid ∧ ∀ roll, ∃ value, expression.meaning roll = .ok value) ∧
    ∀ outcomes, expression.evaluate = .ok outcomes → outcomes.Ascending ∧ ∀ value,
      let share := (#{roll | expression.yields value roll} : Rat) / Fintype.card expression.Roll
      outcomes.probability value = share ∧
        (∀ event ∈ outcomes.events, event.value == value → event.probability = share) ∧
        ((∃ event ∈ outcomes.events, event.value == value) ↔
          0 < #{roll | expression.yields value roll}) := by
  have sound := built.sound
  refine ⟨sound.exists_evaluate_iff, fun outcomes evaluated => ?_⟩
  obtain ⟨-, quantity, law, realizes⟩ := sound.law outcomes evaluated
  refine ⟨law.ascending, fun value => ?_⟩
  have yielding (roll : expression.Roll) := yields_of_realizes (realizes roll) value
  simp only [yielding, Value.beq_iff_compare]
  refine ⟨law.probability_eq value, fun event member same => ?_, ?_⟩
  · rw [law.event_probability_eq member]
    simp only [Std.TransCmp.congr_right same]
  · rw [law.occurs_iff, Finset.card_pos, Finset.filter_nonempty_iff]
    simp only [Finset.mem_univ, true_and]

/-- Two equal coins are thrown independently of each other. -/
theorem evaluate_exact_coins :
    let coin : Expression := .pool ⟨1, 2, none⟩
    let equals : Expression := .binary coin ⟨.equal, .integer, .boolean⟩ coin
    equals.Built ∧ ∃ outcomes, equals.evaluate = .ok outcomes ∧
      outcomes.probability (.boolean true) = 1 / 2 := by
  intro coin equals
  have made : coin.binary? .equal coin = .ok equals := rfl
  have built : equals.Built := .binary (.pool _) (.pool _) made
  have valid : coin.PoolsValid := ⟨by decide, by decide, by decide, by simp⟩
  obtain ⟨succeeds, shares⟩ := evaluate_exact built
  obtain ⟨outcomes, evaluated⟩ := succeeds.2 ⟨⟨valid, valid⟩, fun _ => ⟨_, rfl⟩⟩
  have yielding : #{roll | equals.yields (.boolean true) roll} = 2 := by decide +kernel
  have rolls : Fintype.card equals.Roll = 4 := by decide +kernel
  refine ⟨built, outcomes, evaluated, ?_⟩
  rw [((shares outcomes evaluated).2 _).1, yielding, rolls]
  norm_num

/-- Evaluation is type sound. It fails with a fault of the calculation only, and otherwise yields
ascending outcomes of the type of the expression with positive probabilities that sum to one. -/
theorem evaluate_sound {expression : Expression} (built : expression.Built) :
    match expression.evaluate with
    | .error fault => fault.IsCalculation
    | .ok outcomes => outcomes.events ≠ [] ∧ outcomes.Ascending ∧
        (∀ event ∈ outcomes.events, event.value.type == expression.type ∧ 0 < event.probability) ∧
        outcomes.total = 1 := by
  have sound := built.sound
  cases evaluated : expression.evaluate with
  | error fault => exact (sound.fault fault evaluated).1
  | ok outcomes =>
      obtain ⟨valid, quantity, law, realizes⟩ := sound.law outcomes evaluated
      have := valid.nonempty
      refine ⟨?_, law.ascending, fun event member => ⟨?_, law.probability_pos member⟩,
        law.total_eq_one⟩
      · obtain ⟨event, member⟩ := law.exists_event
        exact List.ne_nil_of_mem member
      · obtain ⟨roll, reaches⟩ := law.describes.exists_roll member
        obtain ⟨-, -, -, -, -, typed⟩ := realizes roll
        exact reaches ▸ typed

/-- A division by zero is a fault of the calculation. -/
theorem evaluate_sound_division :
    let ratio : Expression :=
      .binary (.constant (.integer 1)) ⟨.divide, .integer, .integer⟩ (.constant (.integer 0))
    ratio.Built ∧ ∃ fault, ratio.evaluate = .error fault ∧ fault.IsCalculation := by
  intro ratio
  have made : (constant (.integer 1)).binary? .divide (constant (.integer 0)) = .ok ratio := rfl
  have built : ratio.Built := .binary (.constant (.integer 1 (by decide)))
    (.constant (.integer 0 (by decide))) made
  have sound := evaluate_sound built
  exact ⟨built, .divisionByZero 1, rfl, sound⟩

end Expression

end DiceOdds
