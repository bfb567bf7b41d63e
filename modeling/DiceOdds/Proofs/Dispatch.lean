import DiceOdds.Proofs.CommonType

/-
This file shows that the operations that can be settled for a type are those that can be computed on
its values. A settled operation yields its result type or fails in its arithmetic, and an operator
without an operation on a type fails on all of its values.
-/

namespace DiceOdds

namespace Operator

theorem supports_equal (type : ValueType) : Operator.equal.supports type = true := by
  rcases type with _ | _ | _ | ⟨⟨dimensions⟩⟩ <;> rfl

/-- On values of a type that supports it, an operator yields a value of its result type or fails in
its arithmetic. -/
theorem compute_supported {operator : Operator} {operand : ValueType}
    (supported : operator.supports operand) {left right : Value} (ofLeft : left.WellFormed)
    (ofRight : right.WellFormed) (typedLeft : left.type == operand)
    (typedRight : right.type == operand) :
    match operator.compute left right with
    | .ok result => result.type == operator.resultType operand
    | .error fault => fault.IsArithmetic operator := by
  cases arithmetic : operator.isArithmetic with
  | true =>
      have acts := actsOnLeaves_of_supports arithmetic left.type
        (supports_congr operator typedLeft ▸ supported) left right ofLeft ofRight BEq.rfl
        (BEq.trans typedRight (BEq.symm typedLeft))
      rw [compute_arithmetic arithmetic, resultType, if_pos arithmetic]
      cases ran : operator.leafResults left.leaves right.leaves with
      | error fault =>
          rw [ran] at acts
          obtain ⟨reason, failed, rfl⟩ := acts.exists_of_error
          rw [failed]
          exact leafResults_isArithmetic arithmetic ran
      | ok leaves =>
          rw [ran] at acts
          obtain ⟨result, computed, -, typed, -⟩ := acts.exists_of_ok
          rw [computed]
          exact BEq.trans typed typedLeft
  | false =>
      obtain ⟨truth, computed, -⟩ :=
        compute_boolean supported arithmetic typedLeft typedRight BEq.rfl BEq.rfl
      rw [computed, resultType, if_neg (by simp [arithmetic])]
      exact BEq.rfl

/-- Arithmetic fails on a type when it fails on any two of its values. -/
def FailsOn (operator : Operator) (type : ValueType) : Prop :=
  ∀ left right : Value, left.WellFormed → right.WellFormed → left.type == type →
    right.type == type → ∃ fault, operator.computeArithmetic type left right = .error fault

/-- One dimension on which arithmetic fails makes it fail on all of them together. -/
theorem computeDimensions_fails {operator : Operator}
    {types firsts seconds : List (Symbol × ValueType)} {left right : List (Symbol × Value)}
    (fails : ∃ dimension ∈ types, operator.FailsOn dimension.2)
    (sameFirst : List.Forall₂ (fun one other => one.1 == other.1 ∧ one.2 == other.2) firsts types)
    (sameSecond : List.Forall₂ (fun one other => one.1 == other.1 ∧ one.2 == other.2) seconds types)
    (ofLeft : List.Forall₂ Fills firsts left) (ofRight : List.Forall₂ Fills seconds right) :
    ∃ fault, operator.computeDimensions types left right = .error fault := by
  induction sameFirst generalizing seconds left right with
  | nil =>
      obtain ⟨dimension, member, -⟩ := fails
      cases member
  | @cons first type firsts types agreesFirst sameFirst known =>
      rcases sameSecond with _ | ⟨agreesSecond, sameSecond⟩
      rcases ofLeft with _ | ⟨⟨-, formedLeft, typeLeft⟩, ofLeft⟩
      rcases ofRight with _ | ⟨⟨-, formedRight, typeRight⟩, ofRight⟩
      rename_i second seconds one left other right
      rw [computeDimensions]
      cases computed : operator.computeArithmetic type.2 one.2 other.2 with
      | error fault => exact ⟨fault, rfl⟩
      | ok value =>
          obtain ⟨dimension, member, failsOn⟩ := fails
          rcases List.mem_cons.1 member with rfl | later
          · obtain ⟨fault, failed⟩ := failsOn one.2 other.2 formedLeft formedRight
              (BEq.trans (BEq.symm typeLeft) agreesFirst.2)
              (BEq.trans (BEq.symm typeRight) agreesSecond.2)
            rw [computed] at failed
            cases failed
          · obtain ⟨fault, failed⟩ := known ⟨dimension, later, failsOn⟩ sameSecond ofLeft ofRight
            exact ⟨fault, by rw [failed]; rfl⟩

/-- Arithmetic fails on every type that does not support it, however deep the reason lies. -/
theorem failsOn_of_not_supports {operator : Operator} (arithmetic : operator.isArithmetic)
    (type : ValueType) : operator.supports type = false → operator.FailsOn type := by
  induction type using ValueType.induction with
  | integer =>
      intro unsupported
      cases operator <;> cases unsupported
      all_goals cases arithmetic
  | boolean => exact fun _ left right _ _ _ _ => ⟨_, rfl⟩
  | symbol category => exact fun _ left right _ _ _ _ => ⟨_, rfl⟩
  | vector dimensions known =>
      intro unsupported left right ofLeft ofRight typedLeft typedRight
      obtain ⟨first, rfl, sameFirst⟩ := Value.eq_vector_of_type typedLeft
      obtain ⟨second, rfl, sameSecond⟩ := Value.eq_vector_of_type typedRight
      rw [computeArithmetic]
      split
      · next defined =>
          simp only [supports, arithmetic, supportsAll_eq_all, (Bool.and_eq_true _ _ ▸ defined).1,
            Bool.not_true, Bool.false_or, Bool.true_and, List.all_eq_false] at unsupported
          obtain ⟨dimension, member, lacking⟩ := unsupported
          obtain ⟨fault, failed⟩ := computeDimensions_fails
            ⟨dimension, member, known dimension member (Bool.eq_false_iff.2 lacking)⟩
            (Space.beq_iff.1 sameFirst) (Space.beq_iff.1 sameSecond)
            (SparseVector.reading_fills ofLeft) (SparseVector.reading_fills ofRight)
          exact ⟨fault, by rw [failed]; rfl⟩
      · exact ⟨_, rfl⟩

/-- An operator fails on all values of a type that does not support it. -/
theorem compute_unsupported {operator : Operator} {operand : ValueType}
    (unsupported : operator.supports operand = false) {left right : Value}
    (ofLeft : left.WellFormed) (ofRight : right.WellFormed) (typedLeft : left.type == operand)
    (typedRight : right.type == operand) : ∃ fault, operator.compute left right = .error fault := by
  cases arithmetic : operator.isArithmetic with
  | true =>
      rw [compute_arithmetic arithmetic]
      apply failsOn_of_not_supports arithmetic left.type _ left right ofLeft ofRight BEq.rfl
      · exact BEq.trans typedRight (BEq.symm typedLeft)
      · rw [supports_congr operator typedLeft]
        exact unsupported
  | false =>
      rw [← supports_congr operator typedLeft] at unsupported
      cases operator with
      | add | subtract | multiply | divide => cases arithmetic
      | equal =>
          rw [supports_equal] at unsupported
          cases unsupported
      | less | greater =>
          cases left with
          | integer number => cases unsupported
          | boolean | symbol | vector => exact ⟨_, rfl⟩
      | and | or =>
          cases left with
          | boolean truth => cases unsupported
          | integer | symbol | vector => exact ⟨_, rfl⟩

end Operator

namespace Operation

/-- A settled operation computes what its operator does. -/
theorem compute_of_find? {operator : Operator} {first second : ValueType} {operation : Operation}
    (found : find? operator first second = some operation) (left right : Value) :
    operation.compute left right = operator.compute left right := by
  rw [compute, (settled_of_find? found).1]

/-- A type that supports an operator has an operation for two operands of this type. -/
theorem exists_find?_of_supports {operator : Operator} {type : ValueType} (formed : type.WellFormed)
    (supported : operator.supports type) : ∃ operation, find? operator type type = some operation := by
  have self := ValueType.converts_self formed
  by_cases symbol : type.tag = .symbol
  · -- The common type of a symbol with itself is not the symbol, but a vector.
    obtain rfl : operator = .equal := by
      cases type <;> cases symbol
      cases operator <;> first | rfl | cases supported
    obtain ⟨common, found⟩ := ValueType.exists_common?_of_converts formed formed self self
    exact ⟨⟨.equal, common, .boolean⟩,
      find?_eq_some_iff.2 ⟨found, Operator.supports_equal common, rfl⟩⟩
  · exact exists_find?_of_converts formed formed symbol self self supported

/-- An operation on two values of its operand type yields a value of its result type or fails in its
arithmetic. An operator without an operation on a type fails on any two values of the type. -/
theorem compute_settled {operator : Operator} {type : ValueType} {left right : Value}
    (ofLeft : left.Built) (ofRight : right.Built) (typedLeft : left.type == type)
    (typedRight : right.type == type) :
    (∀ first second operation, find? operator first second = some operation →
      type == operation.operand →
        match operation.compute left right with
        | .ok result => result.type == operation.result
        | .error fault => fault.IsArithmetic operator) ∧
    (find? operator type type = none → ∃ fault, operator.compute left right = .error fault) := by
  constructor
  · intro first second operation found same
    obtain ⟨-, supported, settled⟩ := find?_eq_some found
    have computed := Operator.compute_supported supported ofLeft.wellFormed ofRight.wellFormed
      (BEq.trans typedLeft same) (BEq.trans typedRight same)
    rw [settled]
    exact computed
  · intro missing
    have formed := ofLeft.wellFormed.type_wellFormed.congr typedLeft
    have unsupported : operator.supports type = false := by
      by_contra supported
      obtain ⟨operation, found⟩ := exists_find?_of_supports formed (by simpa using supported)
      rw [missing] at found
      cases found
    exact Operator.compute_unsupported unsupported ofLeft.wellFormed ofRight.wellFormed typedLeft
      typedRight

/-- A sum of nested vectors overflows at a leaf, and a product of them is refused at once. -/
theorem compute_settled_nested :
    let inner : Space := .unit ⟨"a", .tick⟩
    let outer : Space := ⟨[(⟨"v", .tick⟩, .vector inner)]⟩
    let flat (number : Int) : Value := .vector ⟨inner, [(⟨"a", .tick⟩, .integer number)]⟩
    let nested (number : Int) : Value := .vector ⟨outer, [(⟨"v", .tick⟩, flat number)]⟩
    let sum : Operation := ⟨.add, .vector outer, .vector outer⟩
    find? .add (.vector outer) (.vector outer) = some sum ∧
      find? .multiply (.vector outer) (.vector outer) = none ∧
      (∃ fault, sum.compute (nested greatestInteger) (nested 1) = .error fault ∧
        fault.IsArithmetic .add) ∧
      ∃ fault, Operator.multiply.compute (nested greatestInteger) (nested 1) = .error fault := by
  intro inner outer flat nested sum
  have found : find? .add (.vector outer) (.vector outer) = some sum := rfl
  have missing : find? .multiply (.vector outer) (.vector outer) = none := rfl
  have made : Space.ofDimensions? [(⟨"v", .tick⟩, .vector inner)] = .ok outer := rfl
  have space : (ValueType.vector outer).Built :=
    .listed (List.forall_mem_singleton.2 (.unit _)) made
  have built {number : Int} (representable : Representable number)
      (leaf : SparseVector.ofComponents? inner [(⟨"a", .tick⟩, .integer number)] =
        .ok ⟨inner, [(⟨"a", .tick⟩, .integer number)]⟩) : (nested number).Built := by
    have stored : SparseVector.ofComponents? outer [(⟨"v", .tick⟩, flat number)] =
        .ok ⟨outer, [(⟨"v", .tick⟩, flat number)]⟩ := rfl
    have ofFlat : (flat number).Built :=
      .listed (.unit _) (List.forall_mem_singleton.2 (.integer number representable)) leaf
    exact .listed space (List.forall_mem_singleton.2 ofFlat) stored
  have settled (operator : Operator) : _ ∧ (find? operator _ _ = none → _) :=
    compute_settled (built (by decide) rfl) (built (by decide) rfl)
      (show (nested greatestInteger).type == .vector outer from BEq.rfl)
      (show (nested 1).type == .vector outer from BEq.rfl)
  have failed : sum.compute (nested greatestInteger) (nested 1) =
      .error (.overflow .add greatestInteger 1) := rfl
  have summed := (settled .add).1 _ _ sum found BEq.rfl
  rw [failed] at summed
  exact ⟨found, missing, ⟨_, failed, summed⟩, (settled .multiply).2 missing⟩

end Operation

end DiceOdds
