import DiceOdds.Proofs.LeastFault
import DiceOdds.Proofs.RollMeaning

/-
This file shows that the fault of an expression depends only on the outcomes of its operands. Operands
are replaced by others with equal outcomes, and the conversions and the operations around them go on in
agreement.
-/

namespace DiceOdds

namespace Expression

variable {source first second left right otherLeft otherRight : Expression}

/-- A converted expression is evaluated to images of the outcomes of its source. -/
theorem Built.evaluate_images (built : source.Built) {target : ValueType}
    (ofTarget : target.WellFormed) (converts : source.type.convertsTo target = true) :
    Agree Eq (fun outcomes images => List.Forall₂ (IsImage target) outcomes.values images.values)
      source.evaluate (Expression.converted source target).evaluate := by
  cases evaluated : source.evaluate with
  | error fault =>
      rw [evaluate, evaluated]
      exact .error rfl
  | ok outcomes =>
      rw [built.evaluate_converted evaluated converts ofTarget]
      refine .ok ?_
      rw [Distribution.values, Distribution.values, List.map_map, List.forall₂_map_left_iff,
        List.forall₂_map_right_iff, List.forall₂_same]
      intro event member
      obtain ⟨formed, typed⟩ := built.outcomes_wellFormed evaluated member
      obtain ⟨image, imaged, ofImage, ofType⟩ := Value.convert?_ok formed ofTarget
        (ValueType.convertsTo_congr typed target ▸ converts)
      obtain ⟨-, rfl⟩ := Value.convert?_eq_ok_iff.1 imaged
      exact ⟨ofImage, ofType, Value.leafAt_convert? imaged⟩

/-- A coerced expression is evaluated to images of the outcomes of its source. -/
theorem Built.coerce?_images (built : source.Built) {target : ValueType}
    (ofTarget : target.WellFormed) {expression : Expression}
    (made : source.coerce? target = .ok expression) :
    Agree Eq (fun outcomes images => List.Forall₂ (IsImage target) outcomes.values images.values)
      source.evaluate expression.evaluate := by
  rcases coerce?_eq_ok made with ⟨types, rfl⟩ | ⟨converts, rfl⟩
  · cases evaluated : expression.evaluate with
    | error fault => exact .error rfl
    | ok outcomes =>
        refine .ok (List.forall₂_same.2 fun value member => ?_)
        obtain ⟨event, inside, rfl⟩ := List.mem_map.1 member
        obtain ⟨formed, typed⟩ := built.outcomes_wellFormed evaluated inside
        exact ⟨formed, BEq.trans typed types, fun _ => rfl⟩
  · exact built.evaluate_images ofTarget converts

/-- Expressions are interchangeable when they have the same outcomes or the same fault. -/
structure Interchangeable (first second : Expression) : Prop where
  ofFirst : first.Built
  ofSecond : second.Built
  same : Agree Eq Distribution.SameOutcomes first.evaluate second.evaluate

/-- Expressions correspond when the same operators, brackets and conversions are applied to
interchangeable operands. -/
inductive Corresponds : Expression → Expression → Prop where
  | operand {first second : Expression} (same : Interchangeable first second) :
      Corresponds first second
  | bracketed {first second : Expression} (inner : Corresponds first second) :
      Corresponds (.bracketed first) (.bracketed second)
  | converted {first second expression other : Expression} {target : ValueType}
      (inner : Corresponds first second) (ofTarget : target.Built)
      (made : first.convert? target = .ok expression) (also : second.convert? target = .ok other) :
      Corresponds expression other
  | binary {left right otherLeft otherRight expression other : Expression} {operator : Operator}
      (lefts : Corresponds left otherLeft) (rights : Corresponds right otherRight)
      (made : left.binary? operator right = .ok expression)
      (also : otherLeft.binary? operator otherRight = .ok other) : Corresponds expression other

namespace Interchangeable

/-- The outcomes of interchangeable expressions are equal in turn, and so are their types then. -/
theorem outcomes (same : Interchangeable first second) :
    Agree Eq (fun outcomes others => first.type == second.type ∧
        List.Forall₂ (fun one other => SoundResults other.type one other) outcomes.values
          others.values)
      first.evaluate second.evaluate := by
  have agree := same.same
  cases evaluated : first.evaluate with
  | error fault =>
      rw [agree.eq_error_iff.1 evaluated]
      exact .error rfl
  | ok outcomes =>
      rw [evaluated] at agree
      obtain ⟨others, also, equal⟩ := agree.symm.exists_of_ok
      rw [also]
      obtain ⟨valid, quantity, law, -⟩ := same.ofFirst.sound.law outcomes evaluated
      obtain ⟨-, other, alsoLaw, -⟩ := same.ofSecond.sound.law others also
      have known {one next : Value} (member : one ∈ outcomes.values) (inside : next ∈ others.values)
          (agrees : compare one next = .eq) :
          SoundResults next.type one next ∧ first.type == second.type := by
        obtain ⟨event, ofEvent, rfl⟩ := List.mem_map.1 member
        obtain ⟨found, ofFound, rfl⟩ := List.mem_map.1 inside
        obtain ⟨formed, typed⟩ := same.ofFirst.outcomes_wellFormed evaluated ofEvent
        obtain ⟨alsoFormed, alsoTyped⟩ := same.ofSecond.outcomes_wellFormed also ofFound
        have agrees := Value.beq_iff_compare.2 agrees
        exact ⟨⟨agrees, formed, alsoFormed, BEq.rfl⟩,
          BEq.trans (BEq.symm typed) (BEq.trans (Value.beq_iff.1 agrees).1 alsoTyped)⟩
      have aligned := law.ascending.aligned alsoLaw.ascending equal
      refine .ok ⟨?_, aligned.imp fun one next facts => (known facts.1 facts.2.1 facts.2.2).1⟩
      have := valid.nonempty
      obtain ⟨event, member⟩ := law.exists_event
      have inside := List.mem_map_of_mem (f := Event.value) member
      obtain ⟨next, reached, agrees⟩ :=
        (equal event.value).1 ⟨event.value, inside, Std.ReflOrd.compare_self⟩
      exact (known inside reached (Std.OrientedCmp.eq_symm agrees)).2

theorem bracketed (same : Interchangeable first second) :
    Interchangeable (.bracketed first) (.bracketed second) :=
  ⟨.bracketed same.ofFirst, .bracketed same.ofSecond, same.same⟩

/-- Images of interchangeable outcomes in equal types are equal in turn. -/
theorem images {target other : ValueType} (same : Interchangeable first second)
    {image another : Except Fault (Distribution Value)}
    (ofFirst : Agree Eq (fun outcomes images =>
      List.Forall₂ (IsImage target) outcomes.values images.values) first.evaluate image)
    (ofSecond : Agree Eq (fun outcomes images =>
      List.Forall₂ (IsImage other) outcomes.values images.values) second.evaluate another) :
    Agree Eq (fun images others => first.type == second.type ∧ (target == other →
      List.Forall₂ (SoundResults other) images.values others.values)) image another := by
  have chain := (ofFirst.symm.trans same.outcomes).trans ofSecond
  refine chain.imp ?_ ?_
  · rintro one next ⟨_, ⟨_, rfl, rfl⟩, rfl⟩
    rfl
  · rintro one next ⟨others, ⟨outcomes, images, types, equal⟩, alsoImages⟩
    refine ⟨types, fun targets => ?_⟩
    exact forall₂_of_square equal images alsoImages fun one other image another agrees ofOne ofOther =>
      ofOne.congr ofOther targets agrees

/-- Conversions to one type keep expressions interchangeable. -/
theorem converted (same : Interchangeable first second) {expression other : Expression}
    {target : ValueType} (ofTarget : target.Built) (made : first.convert? target = .ok expression)
    (also : second.convert? target = .ok other) : Interchangeable expression other where
  ofFirst := .converted same.ofFirst ofTarget made
  ofSecond := .converted same.ofSecond ofTarget also
  same := by
    obtain ⟨converts, rfl⟩ := convert?_eq_ok made
    obtain ⟨alsoConverts, rfl⟩ := convert?_eq_ok also
    have images := same.images (same.ofFirst.evaluate_images ofTarget.wellFormed converts)
      (same.ofSecond.evaluate_images ofTarget.wellFormed alsoConverts)
    exact images.imp (fun _ _ equal => equal) fun outcomes others facts =>
      Distribution.sameOutcomes_of_forall₂
        ((facts.2 BEq.rfl).imp fun one other equal => Value.beq_iff_compare.1 equal.same)

/-- One operator keeps expressions interchangeable. -/
theorem binary (lefts : Interchangeable left otherLeft) (rights : Interchangeable right otherRight)
    {expression other : Expression} {operator : Operator}
    (made : left.binary? operator right = .ok expression)
    (also : otherLeft.binary? operator otherRight = .ok other) :
    Interchangeable expression other where
  ofFirst := .binary lefts.ofFirst rights.ofFirst made
  ofSecond := .binary lefts.ofSecond rights.ofSecond also
  same := by
    obtain ⟨operation, one, two, found, madeOne, madeTwo, rfl⟩ := binary?_eq_ok made
    obtain ⟨next, first, second, alsoFound, madeFirst, madeSecond, rfl⟩ := binary?_eq_ok also
    obtain ⟨common, -, -⟩ := Operation.find?_eq_some found
    obtain ⟨alsoCommon, -, -⟩ := Operation.find?_eq_some alsoFound
    obtain ⟨operator, supported, -⟩ := Operation.settled_of_find? found
    obtain ⟨alsoOperator, -, -⟩ := Operation.settled_of_find? alsoFound
    have typeLeft := lefts.ofFirst.sound.typed
    have typeRight := rights.ofFirst.sound.typed
    have typeOtherLeft := lefts.ofSecond.sound.typed
    have typeOtherRight := rights.ofSecond.sound.typed
    have ofOperand := ValueType.common?_wellFormed typeLeft typeRight common
    have ofOther := ValueType.common?_wellFormed typeOtherLeft typeOtherRight alsoCommon
    have ofLefts := lefts.images (lefts.ofFirst.coerce?_images ofOperand madeOne)
      (lefts.ofSecond.coerce?_images ofOther madeFirst)
    have ofRights := rights.images (rights.ofFirst.coerce?_images ofOperand madeTwo)
      (rights.ofSecond.coerce?_images ofOther madeSecond)
    refine ofLefts.bind fun outcomes others alike => ofRights.bind fun after later related => ?_
    have types := ValueType.common?_congr typeLeft typeRight typeOtherLeft typeOtherRight alike.1
      related.1 common alsoCommon
    refine Distribution.tryJoin_agree (alike.2 types) (related.2 types)
      fun value equal operand another left right => ?_
    have sameOperator : next.operator = operation.operator := alsoOperator.trans operator.symm
    change Agree _ _ (operation.operator.compute value operand) (next.operator.compute equal another)
    rw [sameOperator]
    refine (Operator.compute_agree supported left.ofFirst right.ofFirst left.ofSecond
      right.ofSecond ?_ ?_ left.same right.same).imp (fun _ _ faults => faults.1)
      fun result also sound => Value.beq_iff_compare.1 sound.same
    · exact BEq.trans (Value.beq_iff.1 left.same).1 (BEq.trans left.typed (BEq.symm types))
    · exact BEq.trans (Value.beq_iff.1 right.same).1 (BEq.trans right.typed (BEq.symm types))

end Interchangeable

/-- Corresponding expressions are interchangeable themselves. -/
theorem Corresponds.interchangeable (corresponds : Corresponds first second) :
    Interchangeable first second := by
  induction corresponds with
  | operand same => exact same
  | bracketed inner known => exact known.bracketed
  | converted inner ofTarget made also known => exact known.converted ofTarget made also
  | binary lefts rights made also knownLeft knownRight => exact knownLeft.binary knownRight made also

end Expression

/-- The least fault decides, and nothing else about the distributions does. Joining two distributions
succeeds when every pair of their outcomes has an image, and then it is joining that cannot fail.
Otherwise it has the fault of the first failing pair in the order of the left outcome and then of the
right one. Mapping a distribution is the same with single outcomes. Expressions with the same operators
on operands with the same outcomes have the same fault, or the same outcomes again. -/
theorem least_fault {A B C E : Type} [Ord A] [Ord B] [Ord C] [Std.TransOrd A] [Std.TransOrd B]
    {left : Distribution A} {right : Distribution B} (ofLeft : left.Built) (ofRight : right.Built)
    (pairImage : A → B → Except E C) (image : A → Except E C) :
    ((∃ joined, left.tryJoin right pairImage = .ok joined) ↔ ∀ first ∈ left.values,
      ∀ second ∈ right.values, ∃ result, pairImage first second = .ok result) ∧
    (∀ result : A → B → C, (∀ first ∈ left.values, ∀ second ∈ right.values,
        pairImage first second = .ok (result first second)) →
      left.tryJoin right pairImage = .ok (left.join right result)) ∧
    (∀ fault, left.tryJoin right pairImage = .error fault ↔ ∃ first ∈ left.values,
      ∃ second ∈ right.values, pairImage first second = .error fault ∧ ∀ other ∈ left.values,
        ∀ next ∈ right.values, (∃ reason, pairImage other next = .error reason) →
          ((compare first other).then (compare second next)).isLE) ∧
    ((∃ mapped, left.tryMap image = .ok mapped) ↔
      ∀ value ∈ left.values, ∃ result, image value = .ok result) ∧
    (∀ result : A → C, (∀ value ∈ left.values, image value = .ok (result value)) →
      left.tryMap image = .ok (left.map result)) ∧
    (∀ fault, left.tryMap image = .error fault ↔ ∃ value ∈ left.values,
      image value = .error fault ∧ ∀ other ∈ left.values,
        (∃ reason, image other = .error reason) → (compare value other).isLE) ∧
    ∀ one other : Expression, one.Corresponds other →
      (∀ fault, one.evaluate = .error fault ↔ other.evaluate = .error fault) ∧
      ∀ outcomes others, one.evaluate = .ok outcomes → other.evaluate = .ok others →
        outcomes.SameOutcomes others := by
  refine ⟨Distribution.exists_tryJoin_iff, fun _ => Distribution.tryJoin_eq_join,
    fun _ => Distribution.tryJoin_eq_error_iff ofLeft.ascending ofRight.ascending,
    Distribution.exists_tryMap_iff, fun _ => Distribution.tryMap_eq_map, fun _ => ?_, ?_⟩
  · rw [Distribution.tryMap_eq_error_iff]
    exact isFirst_iff_least compare ofLeft.ascending.values_increasing
  · intro one other corresponds
    have agree := corresponds.interchangeable.same
    refine ⟨fun _ => agree.eq_error_iff, fun outcomes others evaluated also => ?_⟩
    rw [evaluated, also] at agree
    cases agree with
    | ok same => exact same

/-- Of two failing pairs the one with the lesser left outcome is reported. A die with one side stands
for the number one, and a quotient by their difference divides by zero like one by a zero. -/
theorem least_fault_division :
    let pairImage (first second : Int) : Except (Int × Int) Int :=
      if first = 2 ∨ second = 3 then .error (first, second) else .ok (first + second)
    let one : Expression := .constant (.integer 1)
    let die : Expression := .pool ⟨1, 1, none⟩
    let difference : Expression := .binary die ⟨.subtract, .integer, .integer⟩ one
    let zero : Expression := .binary one ⟨.subtract, .integer, .integer⟩ one
    let quotient : Expression := .binary one ⟨.divide, .integer, .integer⟩ difference
    let other : Expression := .binary one ⟨.divide, .integer, .integer⟩ zero
    ∃ left right : Distribution Int, left.Built ∧ right.Built ∧ left.values = [1, 2] ∧
      right.values = [1, 2, 3] ∧ left.tryJoin right pairImage = .error (1, 3) ∧
      quotient.Corresponds other ∧ quotient.evaluate = .error (.divisionByZero 1) := by
  intro pairImage one die difference zero quotient other
  obtain ⟨left, rolledLeft⟩ : ∃ left, Distribution.die? 2 = .ok left := ⟨_, rfl⟩
  obtain ⟨right, rolledRight⟩ : ∃ right, Distribution.die? 3 = .ok right := ⟨_, rfl⟩
  have valuesLeft : left.values = [1, 2] := by
    cases rolledLeft
    rfl
  have valuesRight : right.values = [1, 2, 3] := by
    cases rolledRight
    rfl
  have ofLeft : left.Built := .die rolledLeft
  have ofRight : right.Built := .die rolledRight
  have ofOne : one.Built := .constant (.integer 1 (by decide))
  have rolled : die.evaluate = one.evaluate := by
    cbv
  have thrown : die.Corresponds one :=
    .operand ⟨.pool _, ofOne, rolled ▸ .refl (fun _ _ => Iff.rfl) _⟩
  have itself : one.Corresponds one := .operand ⟨ofOne, ofOne, .refl (fun _ _ => Iff.rfl) _⟩
  have subtracted : die.binary? .subtract one = .ok difference := rfl
  have divided : one.binary? .divide difference = .ok quotient := rfl
  have corresponds : quotient.Corresponds other :=
    .binary itself (.binary thrown itself subtracted rfl) divided rfl
  obtain ⟨-, -, pairFault, -, -, -, expressions⟩ :=
    least_fault (C := Int) ofLeft ofRight pairImage fun _ => .ok 0
  refine ⟨left, right, ofLeft, ofRight, valuesLeft, valuesRight, ?_, corresponds, ?_⟩
  · rw [pairFault, valuesLeft, valuesRight]
    have least : ∀ other ∈ [(1 : Int), 2], ∀ next ∈ [(1 : Int), 2, 3], other = 2 ∨ next = 3 →
        ((compare 1 other).then (compare 3 next)).isLE := by
      decide
    refine ⟨1, by decide, 3, by decide, rfl, fun other inLeft next inRight failing => ?_⟩
    obtain ⟨reason, failed⟩ := failing
    refine least other inLeft next inRight (by_contra fun clear => ?_)
    have imaged : pairImage other next = .ok (other + next) := if_neg clear
    rw [imaged] at failed
    cases failed
  · have failed : other.evaluate = .error (.divisionByZero 1) := by cbv
    exact ((expressions quotient other corresponds).1 _).2 failed

end DiceOdds
