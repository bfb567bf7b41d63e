import DiceOdds.Proofs.Building
import DiceOdds.Proofs.Evaluation
import DiceOdds.Proofs.LeafPath
import DiceOdds.Proofs.NormalForm

/-
This file compares expressions roll by roll. A binary expression rolls both of its operands and
computes on images of what they mean, and two expressions that mean the same on renamed rolls have
matching distributions.
-/

namespace DiceOdds

open Finset

namespace Expression

namespace Sound

variable {first second : Expression} (ofFirst : first.Sound) (ofSecond : second.Sound)
include ofFirst ofSecond

/-- Expressions that mean equal values on renamed rolls have matching distributions. -/
theorem matches_of_renamed (renamed : first.Roll ≃ second.Roll)
    (same : ∀ roll one other, first.meaning roll = .ok one →
      second.meaning (renamed roll) = .ok other → one == other)
    {outcomes others : Distribution Value} (evaluated : first.evaluate = .ok outcomes)
    (alsoEvaluated : second.evaluate = .ok others) : outcomes.Matches others := by
  obtain ⟨-, one, law, realizes⟩ := ofFirst.law outcomes evaluated
  obtain ⟨-, other, alsoLaw, alsoRealizes⟩ := ofSecond.law others alsoEvaluated
  refine law.matches_of_equal (alsoLaw.equiv renamed) fun roll => Value.beq_iff_compare.1 ?_
  obtain ⟨found, means, agrees, -⟩ := realizes roll
  obtain ⟨also, alsoMeans, alsoAgrees, -⟩ := alsoRealizes (renamed roll)
  exact BEq.trans (BEq.trans (BEq.symm agrees) (same roll found also means alsoMeans)) alsoAgrees

/-- Expressions that succeed on the same rolls as well are evaluated together or not at all. -/
theorem agree (renamed : first.Roll ≃ second.Roll)
    (valid : first.PoolsValid ↔ second.PoolsValid)
    (meanings : first.PoolsValid → ∀ roll, Agree (fun _ _ => True)
      (fun one other : Value => one == other) (first.meaning roll)
        (second.meaning (renamed roll))) :
    Agree (fun _ _ => True) Distribution.Matches first.evaluate second.evaluate := by
  apply Agree.of_exists_iff
  · rw [ofFirst.exists_evaluate_iff, ofSecond.exists_evaluate_iff, Defined, Defined, ← valid]
    refine and_congr_right fun pools => ?_
    rw [← renamed.forall_congr_right]
    exact forall_congr' fun roll => (meanings pools roll).exists_iff
  · intro outcomes others evaluated alsoEvaluated
    have pools := (ofFirst.law outcomes evaluated).1
    refine ofFirst.matches_of_renamed ofSecond renamed (fun roll one other means alsoMeans => ?_)
      evaluated alsoEvaluated
    have related := meanings pools roll
    rw [means, alsoMeans] at related
    cases related with
    | ok same => exact same

end Sound

/-- The meanings of an expression are well formed and have its type. -/
def Consistent (expression : Expression) : Prop :=
  expression.PoolsValid → ∀ roll value, expression.meaning roll = .ok value →
    value.WellFormed ∧ value.type == expression.type

theorem Consistent.converted {source : Expression} {target : ValueType}
    (consistent : source.Consistent) (ofTarget : target.WellFormed)
    (converts : source.type.convertsTo target = true) : (converted source target).Consistent := by
  intro valid roll value means
  obtain ⟨before, meant, imaged⟩ := Except.bind_eq_ok means
  obtain ⟨formed, typed⟩ := consistent valid roll before meant
  obtain ⟨image, made, ofImage, ofType⟩ := Value.convert?_ok formed ofTarget
    (ValueType.convertsTo_congr typed target ▸ converts)
  obtain rfl := Except.ok.inj (made.symm.trans imaged)
  exact ⟨ofImage, ofType⟩

theorem Consistent.coerced {source expression : Expression} {target : ValueType}
    (consistent : source.Consistent) (ofTarget : target.WellFormed)
    (made : source.coerce? target = .ok expression) : expression.Consistent := by
  rcases coerce?_eq_ok made with ⟨-, rfl⟩ | ⟨converts, rfl⟩
  · exact consistent
  · exact consistent.converted ofTarget converts

theorem Consistent.binary {left right : Expression} {operation : Operation}
    (ofLeft : left.Consistent) (ofRight : right.Consistent)
    (supported : operation.operator.supports operation.operand = true)
    (result : operation.result = operation.operator.resultType operation.operand)
    (typedLeft : left.type == operation.operand) (typedRight : right.type == operation.operand) :
    (binary left operation right).Consistent := by
  intro valid roll value means
  obtain ⟨first, meansFirst, means⟩ := Except.bind_eq_ok means
  obtain ⟨second, meansSecond, computed⟩ := Except.bind_eq_ok means
  obtain ⟨formedFirst, typedFirst⟩ := ofLeft valid.1 _ first meansFirst
  obtain ⟨formedSecond, typedSecond⟩ := ofRight valid.2 _ second meansSecond
  have agree := Operator.compute_agree supported formedFirst formedSecond formedFirst formedSecond
    (BEq.trans typedFirst typedLeft) (BEq.trans typedSecond typedRight) BEq.rfl BEq.rfl
  change operation.operator.compute first second = .ok value at computed
  rw [computed] at agree
  cases agree with
  | ok sound => exact ⟨sound.ofFirst, by rw [type, result]; exact sound.typed⟩

/-- Every tree that the constructors build has consistent meanings. -/
theorem Built.consistent {expression : Expression} (built : expression.Built) :
    expression.Consistent := by
  induction built with
  | constant built =>
      rintro - roll value ⟨⟩
      exact ⟨built.wellFormed, BEq.rfl⟩
  | pool dice =>
      rintro valid roll value ⟨⟩
      exact ⟨.integer _ (valid.rollSum_representable roll), BEq.rfl⟩
  | bracketed built known => exact known
  | converted built ofTarget made known =>
      obtain ⟨converts, rfl⟩ := convert?_eq_ok made
      exact known.converted ofTarget.wellFormed converts
  | coerced built ofTarget made known => exact known.coerced ofTarget.wellFormed made
  | binary ofLeft ofRight made knownLeft knownRight =>
      obtain ⟨operation, first, second, found, coercedLeft, coercedRight, rfl⟩ :=
        binary?_eq_ok made
      obtain ⟨common, -, -⟩ := Operation.find?_eq_some found
      have ofOperand := ValueType.common?_wellFormed ofLeft.sound.typed ofRight.sound.typed common
      obtain ⟨-, supported, result⟩ := Operation.settled_of_find? found
      exact (knownLeft.coerced ofOperand coercedLeft).binary
        (knownRight.coerced ofOperand coercedRight) supported result
        (coerce?_type coercedLeft) (coerce?_type coercedRight)

end Expression

/-- An image of a value in a type is well formed, and it has the type and the leaves of the value. -/
structure IsImage (target : ValueType) (value image : Value) : Prop where
  formed : image.WellFormed
  typed : image.type == target
  leaves : ∀ path, image.leafAt path = value.leafAt path

/-- A value has one image in a type, up to marks. -/
theorem IsImage.beq {target other : ValueType} {value first second : Value}
    (ofFirst : IsImage target value first) (ofSecond : IsImage other value second)
    (types : target == other) : first == second := by
  refine Value.beq_of_leafAt ofFirst.formed ofSecond.formed ?_ fun path _ => ?_
  · exact BEq.trans (BEq.trans ofFirst.typed types) (BEq.symm ofSecond.typed)
  · rw [ofFirst.leaves, ofSecond.leaves]

/-- Equal values have equal images in equal types. -/
theorem IsImage.congr {target other : ValueType} {value another first second : Value}
    (ofFirst : IsImage target value first) (ofSecond : IsImage other another second)
    (types : target == other) (same : SoundResults another.type value another) :
    SoundResults other first second where
  same := ofFirst.beq ⟨ofSecond.formed, ofSecond.typed, fun path =>
    (ofSecond.leaves path).trans
      (Value.leafAt_congr same.ofFirst same.ofSecond same.same path).symm⟩ types
  ofFirst := ofFirst.formed
  ofSecond := ofSecond.formed
  typed := ofSecond.typed

/-- A binary meaning fails with its first failing operand, and otherwise is computed on images of the
operands. -/
inductive Joins (operation : Operation) :
    Except Fault Value → Except Fault Value → Except Fault Value → Prop where
  | left (fault : Fault) (right : Except Fault Value) :
      Joins operation (.error fault) right (.error fault)
  | right (left : Value) (fault : Fault) : Joins operation (.ok left) (.error fault) (.error fault)
  | both {left right first second : Value} (ofLeft : IsImage operation.operand left first)
      (ofRight : IsImage operation.operand right second) :
      Joins operation (.ok left) (.ok right) (operation.compute first second)

theorem joins_of_images {operation : Operation} {left right first second : Except Fault Value}
    (ofLeft : Agree Eq (IsImage operation.operand) left first)
    (ofRight : Agree Eq (IsImage operation.operand) right second) :
    Joins operation left right (do
      let one ← first
      let other ← second
      operation.compute one other) := by
  cases ofLeft with
  | error same =>
      cases same
      exact .left _ right
  | ok image =>
      cases ofRight with
      | error same =>
          cases same
          exact .right _ _
      | ok also => exact .both image also

namespace Expression

/-- A coerced expression rolls its source and means an image of what this means. -/
theorem coerce?_rolls {source expression : Expression} {target : ValueType}
    (consistent : source.Consistent) (ofTarget : target.WellFormed)
    (made : source.coerce? target = .ok expression) :
    ∃ same : expression.Roll ≃ source.Roll, (expression.PoolsValid ↔ source.PoolsValid) ∧
      (source.PoolsValid → ∀ roll, Agree Eq (IsImage target) (source.meaning (same roll))
        (expression.meaning roll)) := by
  rcases coerce?_eq_ok made with ⟨types, rfl⟩ | ⟨converts, rfl⟩
  · refine ⟨Equiv.refl _, Iff.rfl, fun valid roll => ?_⟩
    rw [Equiv.refl_apply]
    cases means : expression.meaning roll with
    | error fault => exact .error rfl
    | ok value =>
        obtain ⟨formed, typed⟩ := consistent valid roll value means
        exact .ok ⟨formed, BEq.trans typed types, fun _ => rfl⟩
  · refine ⟨Equiv.refl _, Iff.rfl, fun valid roll => ?_⟩
    change Agree _ _ (source.meaning roll) (source.meaning roll >>= fun value => value.convert? target)
    cases means : source.meaning roll with
    | error fault => exact .error rfl
    | ok value =>
        obtain ⟨formed, typed⟩ := consistent valid roll value means
        obtain ⟨image, imaged, ofImage, ofType⟩ := Value.convert?_ok formed ofTarget
          (ValueType.convertsTo_congr typed target ▸ converts)
        change Agree _ _ _ (value.convert? target)
        rw [imaged]
        exact .ok ⟨ofImage, ofType, Value.leafAt_convert? imaged⟩

/-- A binary expression rolls both operands. -/
theorem binary?_rolls {left right expression : Expression} {operator : Operator}
    (ofLeft : left.Built) (ofRight : right.Built)
    (made : left.binary? operator right = .ok expression) :
    ∃ operation, Operation.find? operator left.type right.type = some operation ∧
      ∃ split : expression.Roll ≃ left.Roll × right.Roll,
        (expression.PoolsValid ↔ left.PoolsValid ∧ right.PoolsValid) ∧
        (expression.PoolsValid → ∀ roll, Joins operation (left.meaning (split roll).1)
          (right.meaning (split roll).2) (expression.meaning roll)) := by
  obtain ⟨operation, first, second, found, coercedLeft, coercedRight, rfl⟩ := binary?_eq_ok made
  obtain ⟨common, -, -⟩ := Operation.find?_eq_some found
  have ofOperand := ValueType.common?_wellFormed ofLeft.sound.typed ofRight.sound.typed common
  obtain ⟨sameLeft, validLeft, imagesLeft⟩ :=
    coerce?_rolls ofLeft.consistent ofOperand coercedLeft
  obtain ⟨sameRight, validRight, imagesRight⟩ :=
    coerce?_rolls ofRight.consistent ofOperand coercedRight
  refine ⟨operation, found, sameLeft.prodCongr sameRight, and_congr validLeft validRight,
    fun valid roll => ?_⟩
  exact joins_of_images (imagesLeft (validLeft.1 valid.1) roll.1)
    (imagesRight (validRight.1 valid.2) roll.2)

end Expression

end DiceOdds
