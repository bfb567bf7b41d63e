import DiceOdds.Operation
import DiceOdds.Proofs.Agreement
import DiceOdds.Proofs.Conversion

/-
This file shows what operators compute on well-formed operands of a type that supports them.
Arithmetic acts on the leaves of its operands, so equal operands have equal results or the same
fault.
-/

namespace DiceOdds

namespace Value

/-- A value that equals an integer is this integer, and likewise for booleans. -/
theorem eq_integer_of_beq {number : Int} {value : Value} (same : Value.integer number == value) :
    Value.integer number = value := by
  obtain ⟨types, leaves⟩ := beq_iff.1 same
  obtain ⟨other, rfl⟩ := eq_integer_of_type (BEq.symm types)
  rw [List.head_eq_of_cons_eq leaves]

theorem eq_boolean_of_beq {truth : Bool} {value : Value} (same : Value.boolean truth == value) :
    Value.boolean truth = value := by
  obtain ⟨types, leaves⟩ := beq_iff.1 same
  obtain ⟨other, rfl⟩ := eq_boolean_of_type (BEq.symm types)
  have bits := List.head_eq_of_cons_eq leaves
  cases truth <;> cases other <;> first | rfl | cases bits

end Value

/-- Two results are sound for a type when they are equal, well formed and of this type. -/
structure SoundResults (type : ValueType) (first second : Value) : Prop where
  same : first == second
  ofFirst : first.WellFormed
  ofSecond : second.WellFormed
  typed : second.type == type

/-- Arithmetic leaves the range of integers, or it divides by zero. -/
inductive Fault.IsArithmetic : Operator → Fault → Prop where
  | overflow (operator : Operator) (left right : Int) :
      IsArithmetic operator (.overflow operator left right)
  | divisionByZero (dividend : Int) : IsArithmetic .divide (.divisionByZero dividend)

theorem Fault.IsArithmetic.isCalculation {operator : Operator} {fault : Fault}
    (arithmetic : fault.IsArithmetic operator) : fault.IsCalculation := by
  cases arithmetic with
  | overflow => exact .overflow _ _ _
  | divisionByZero => exact .divisionByZero _

namespace Operator

/-- This is the exact result on two integers, as a number. -/
def integerResult (operator : Operator) (left right : Int) : Except Fault Int :=
  if operator == .divide && right == 0 then .error (.divisionByZero left)
  else
    match operator.exactResult? left right with
    | none => .error (.mismatchedOperands operator .integer .integer)
    | some result =>
        match representable? result with
        | some number => .ok number
        | none => .error (.overflow operator left right)

theorem computeInteger_eq (operator : Operator) (left right : Int) :
    operator.computeInteger left right = (operator.integerResult left right).map .integer := by
  unfold computeInteger integerResult
  split
  · rfl
  · cases operator.exactResult? left right with
    | none => rfl
    | some result =>
        dsimp only
        cases representable? result <;> rfl

/-- An integer result is the exact one, if this is representable and nothing is divided by zero. -/
theorem integerResult_eq_ok_iff {operator : Operator} {left right result : Int} :
    operator.integerResult left right = .ok result ↔ ¬(operator = .divide ∧ right = 0) ∧
      operator.exactResult? left right = some result ∧ Representable result := by
  by_cases zero : operator = .divide ∧ right = 0
  · simp [integerResult, zero]
  · have nonzero : (operator == .divide && right == 0) = false := by simpa using zero
    rw [integerResult, nonzero, if_neg Bool.false_ne_true]
    cases operator.exactResult? left right with
    | none => simp
    | some exact =>
        simp only [zero, not_false_eq_true, true_and, Option.some.injEq]
        cases kept : representable? exact with
        | some number =>
            obtain ⟨inRange, rfl⟩ := representable?_eq_some_iff.1 kept
            rw [Except.ok.injEq]
            exact ⟨fun same => ⟨same, same ▸ inRange⟩, And.left⟩
        | none =>
            simp only [reduceCtorEq, false_iff]
            rintro ⟨rfl, inRange⟩
            rw [representable?_eq_some_iff.2 ⟨inRange, rfl⟩] at kept
            cases kept

/-- The fault of an integer result names its operands. -/
theorem integerResult_error {operator : Operator} (arithmetic : operator.isArithmetic)
    {left right : Int} {fault : Fault} (computed : operator.integerResult left right = .error fault) :
    fault = if operator = .divide ∧ right = 0 then .divisionByZero left
      else .overflow operator left right := by
  unfold integerResult at computed
  split at computed
  · next division =>
      cases computed
      rw [if_pos (by simpa using division)]
  · next nonzero =>
      rw [if_neg (by simpa using nonzero)]
      cases operator with
      | add | subtract | multiply | divide =>
          simp only [exactResult?] at computed
          split at computed <;> cases computed
          rfl
      | less | greater | equal | and | or => cases arithmetic

theorem integerResult_representable {operator : Operator} {left right result : Int}
    (computed : operator.integerResult left right = .ok result) : Representable result :=
  (integerResult_eq_ok_iff.1 computed).2.2

theorem integerResult_isArithmetic {operator : Operator} (arithmetic : operator.isArithmetic)
    {left right : Int} {fault : Fault} (computed : operator.integerResult left right = .error fault) :
    fault.IsArithmetic operator := by
  rw [integerResult_error arithmetic computed]
  split
  · next division =>
      rw [division.1]
      exact .divisionByZero left
  · exact .overflow operator left right

/-- Arithmetic on two lists of leaves goes from left to right. -/
def leafResults (operator : Operator) (left right : List Int) : Except Fault (List Int) :=
  (left.zip right).mapM fun leaves => operator.integerResult leaves.1 leaves.2

theorem leafResults_append (operator : Operator) {left right : List Int}
    (equal : left.length = right.length) (moreLeft moreRight : List Int) :
    operator.leafResults (left ++ moreLeft) (right ++ moreRight) = do
      let first ← operator.leafResults left right
      let second ← operator.leafResults moreLeft moreRight
      return first ++ second := by
  rw [leafResults, List.zip_append equal, List.mapM_append]
  rfl

/-- A value carries leaves in a type when it is well formed and has the type and the leaves. -/
def Carries (type : ValueType) (value : Value) (leaves : List Int) : Prop :=
  value.WellFormed ∧ value.type == type ∧ value.leaves = leaves

/-- Components carry leaves in dimensions when they fill the dimensions and have the leaves. -/
def CarriesAll (dimensions : List (Symbol × ValueType)) (components : List (Symbol × Value))
    (leaves : List Int) : Prop :=
  List.Forall₂ Fills dimensions components ∧
    (components.flatMap fun component => component.2.leaves) = leaves

/-- An operator acts on the leaves of values of a type when its result has the results on the
leaves, and when the first leaf at fault decides otherwise. -/
def ActsOnLeaves (operator : Operator) (type : ValueType) : Prop :=
  ∀ left right : Value, left.WellFormed → right.WellFormed → left.type == type →
    right.type == type →
    Agree Eq (Carries type) (operator.computeArithmetic type left right)
      (operator.leafResults left.leaves right.leaves)

theorem actsOnLeaves_integer (operator : Operator) : operator.ActsOnLeaves .integer := by
  intro left right ofLeft ofRight typedLeft typedRight
  obtain ⟨first, rfl⟩ := Value.eq_integer_of_type typedLeft
  obtain ⟨second, rfl⟩ := Value.eq_integer_of_type typedRight
  simp only [computeArithmetic, computeInteger_eq, Value.leaves, leafResults, List.zip_cons_cons,
    List.zip_nil_left, List.mapM_cons, List.mapM_nil]
  cases computed : operator.integerResult first second with
  | error fault => exact .error rfl
  | ok result => exact .ok ⟨.integer _ (integerResult_representable computed), BEq.rfl, rfl⟩

/-- Where an operator acts on the leaves of every dimension, it does so on all of them in turn. -/
theorem computeDimensions_agree {operator : Operator}
    {types firsts seconds : List (Symbol × ValueType)} {left right : List (Symbol × Value)}
    (acts : ∀ dimension ∈ types, operator.ActsOnLeaves dimension.2)
    (sameFirst : List.Forall₂ (fun one other => one.1 == other.1 ∧ one.2 == other.2) firsts types)
    (sameSecond : List.Forall₂ (fun one other => one.1 == other.1 ∧ one.2 == other.2) seconds types)
    (ofLeft : List.Forall₂ Fills firsts left) (ofRight : List.Forall₂ Fills seconds right) :
    Agree Eq (CarriesAll firsts) (operator.computeDimensions types left right)
      (operator.leafResults (left.flatMap fun component => component.2.leaves)
        (right.flatMap fun component => component.2.leaves)) := by
  induction sameFirst generalizing seconds left right with
  | nil =>
      cases sameSecond
      cases ofLeft
      cases ofRight
      exact .ok ⟨.nil, rfl⟩
  | @cons first type firsts types agreesFirst sameFirst known =>
      rcases sameSecond with _ | ⟨agreesSecond, sameSecond⟩
      rcases ofLeft with _ | ⟨⟨nameLeft, formedLeft, typeLeft⟩, ofLeft⟩
      rcases ofRight with _ | ⟨⟨nameRight, formedRight, typeRight⟩, ofRight⟩
      obtain ⟨actsHead, actsTail⟩ := List.forall_mem_cons.1 acts
      have typedLeft := BEq.trans (BEq.symm typeLeft) agreesFirst.2
      have typedRight := BEq.trans (BEq.symm typeRight) agreesSecond.2
      have head := actsHead _ _ formedLeft formedRight typedLeft typedRight
      have tail := known actsTail sameSecond ofLeft ofRight
      rw [List.flatMap_cons, List.flatMap_cons, leafResults_append]
      · rw [computeDimensions]
        apply head.bind
        rintro value leaves ⟨formed, typed, same⟩
        apply tail.bind
        rintro components others ⟨filled, rest⟩
        refine .ok ⟨.cons ⟨nameLeft, formed, ?_⟩ filled, ?_⟩
        · exact BEq.trans agreesFirst.2 (BEq.symm typed)
        · rw [List.flatMap_cons, same, rest]
      · rw [formedLeft.leaves_length, formedRight.leaves_length,
          ValueType.leafCount_congr (BEq.trans typedLeft (BEq.symm typedRight))]

theorem supportsAll_eq_all (operator : Operator) (dimensions : List (Symbol × ValueType)) :
    operator.supportsAll dimensions =
      dimensions.all fun dimension => operator.supports dimension.2 := by
  induction dimensions with
  | nil => rfl
  | cons dimension rest known => rw [supportsAll, known, List.all_cons]

/-- Every arithmetic operator acts on the leaves of the types that support it. -/
theorem actsOnLeaves_of_supports {operator : Operator} (arithmetic : operator.isArithmetic)
    (type : ValueType) : operator.supports type → operator.ActsOnLeaves type := by
  induction type using ValueType.induction with
  | integer => exact fun _ => actsOnLeaves_integer operator
  | boolean =>
      intro supported
      cases operator <;> simp_all [supports, isDefinedOn, isArithmetic, ValueType.tag]
  | symbol category =>
      intro supported
      cases operator <;> simp_all [supports, isDefinedOn, isArithmetic, ValueType.tag]
  | vector dimensions known =>
      intro supported left right ofLeft ofRight typedLeft typedRight
      simp only [supports, arithmetic, Bool.not_true, Bool.false_or, Bool.and_eq_true,
        supportsAll_eq_all, List.all_eq_true] at supported
      obtain ⟨defined, inner⟩ := supported
      obtain ⟨first, rfl, sameFirst⟩ := Value.eq_vector_of_type typedLeft
      obtain ⟨second, rfl, sameSecond⟩ := Value.eq_vector_of_type typedRight
      have acts := computeDimensions_agree
        (fun dimension member => known dimension member (inner _ member))
        (Space.beq_iff.1 sameFirst) (Space.beq_iff.1 sameSecond) (SparseVector.reading_fills ofLeft)
        (SparseVector.reading_fills ofRight)
      have spaces : (first.space == second.space) = true := BEq.trans sameFirst (BEq.symm sameSecond)
      rw [computeArithmetic, if_pos (by simp [defined, spaces]), Value.leaves_vector,
        Value.leaves_vector,
        ← bind_pure (operator.leafResults _ _)]
      apply acts.bind
      rintro components leaves ⟨filled, same⟩
      obtain ⟨vector, built, formed, sameSpace, carried⟩ :=
        SparseVector.ofComponents?_of_fills ofLeft.type_wellFormed filled
      rw [built]
      refine .ok ⟨formed, ?_, carried.trans same⟩
      rw [Value.type, sameSpace, ValueType.vector_beq]
      exact sameFirst

/-- Equal types support the same operators. -/
theorem supports_congr (operator : Operator) {first : ValueType} :
    ∀ {second : ValueType}, first == second → operator.supports first = operator.supports second := by
  induction first using ValueType.induction with
  | integer => exact fun same => (ValueType.eq_integer_of_beq (BEq.symm same)) ▸ rfl
  | boolean => exact fun same => (ValueType.eq_boolean_of_beq (BEq.symm same)) ▸ rfl
  | symbol category =>
      intro second same
      obtain ⟨other, rfl, -⟩ := ValueType.eq_symbol_of_beq (BEq.symm same)
      rfl
  | vector dimensions known =>
      intro second same
      obtain ⟨⟨others⟩, rfl, agree⟩ := ValueType.eq_vector_of_beq (BEq.symm same)
      have pairs := Space.beq_iff.1 (BEq.symm agree)
      change List.Forall₂ _ dimensions others at pairs
      simp only [supports, supportsAll_eq_all]
      congr 2
      clear same agree
      induction pairs with
      | nil => rfl
      | cons agrees rest tail =>
          obtain ⟨head, later⟩ := List.forall_mem_cons.1 known
          rw [List.all_cons, List.all_cons, head agrees.2, tail later]

/-- Arithmetic operators yield their operand type; all others yield booleans. -/
def resultType (operator : Operator) (operand : ValueType) : ValueType :=
  if operator.isArithmetic then operand else .boolean

theorem compute_arithmetic {operator : Operator} (arithmetic : operator.isArithmetic)
    (left right : Value) :
    operator.compute left right = operator.computeArithmetic left.type left right := by
  cases operator <;> first | rfl | cases arithmetic

theorem leafResults_isArithmetic {operator : Operator} (arithmetic : operator.isArithmetic)
    {left right : List Int} {fault : Fault} (failed : operator.leafResults left right = .error fault) :
    fault.IsArithmetic operator := by
  obtain ⟨leaves, -, computed⟩ := Except.exists_of_mapM_eq_error failed
  exact integerResult_isArithmetic arithmetic computed

/-- Arithmetic gives equal results on equal operands, or the same arithmetic fault. -/
theorem computeArithmetic_agree {operator : Operator} (arithmetic : operator.isArithmetic)
    {left right otherLeft otherRight : Value} (supported : operator.supports left.type)
    (ofLeft : left.WellFormed) (ofRight : right.WellFormed)
    (ofOtherLeft : otherLeft.WellFormed) (ofOtherRight : otherRight.WellFormed)
    (typedRight : right.type == left.type)
    (sameLeft : left == otherLeft) (sameRight : right == otherRight) :
    Agree (fun first second => first = second ∧ first.IsCalculation)
      (SoundResults left.type)
      (operator.computeArithmetic left.type left right)
      (operator.computeArithmetic otherLeft.type otherLeft otherRight) := by
  obtain ⟨typesLeft, leavesLeft⟩ := Value.beq_iff.1 sameLeft
  obtain ⟨typesRight, leavesRight⟩ := Value.beq_iff.1 sameRight
  have otherSupported : operator.supports otherLeft.type :=
    supports_congr operator typesLeft ▸ supported
  have otherTyped : otherRight.type == otherLeft.type :=
    BEq.trans (BEq.trans (BEq.symm typesRight) typedRight) typesLeft
  have first := actsOnLeaves_of_supports arithmetic left.type supported left right ofLeft ofRight
    BEq.rfl typedRight
  have second := actsOnLeaves_of_supports arithmetic otherLeft.type otherSupported otherLeft otherRight
    ofOtherLeft ofOtherRight BEq.rfl otherTyped
  rw [← leavesLeft, ← leavesRight] at second
  cases ran : operator.leafResults left.leaves right.leaves with
  | error fault =>
      rw [ran] at first second
      obtain ⟨reason, failed, rfl⟩ := first.exists_of_error
      obtain ⟨other, alsoFailed, rfl⟩ := second.exists_of_error
      rw [failed, alsoFailed]
      exact .error ⟨rfl, (leafResults_isArithmetic arithmetic ran).isCalculation⟩
  | ok leaves =>
      rw [ran] at first second
      obtain ⟨result, computed, formed, typed, carried⟩ := first.exists_of_ok
      obtain ⟨other, alsoComputed, alsoFormed, otherType, otherCarried⟩ := second.exists_of_ok
      have ofType : other.type == left.type := BEq.trans otherType (BEq.symm typesLeft)
      rw [computed, alsoComputed]
      refine .ok ⟨Value.beq_iff.2 ⟨?_, carried.trans otherCarried.symm⟩, formed, alsoFormed, ofType⟩
      exact BEq.trans typed (BEq.symm ofType)

theorem isDefinedOn_of_supports {operator : Operator} {operand : ValueType}
    (supported : operator.supports operand) : operator.isDefinedOn operand.tag := by
  rcases operand with _ | _ | _ | ⟨⟨dimensions⟩⟩
  case vector =>
    rw [supports, Bool.and_eq_true] at supported
    exact supported.1
  all_goals exact supported

/-- Arithmetic has nothing to compute on the single value of a symbol. -/
theorem tag_ne_symbol {operator : Operator} (arithmetic : operator.isArithmetic) {operand : ValueType}
    (supported : operator.supports operand) : operand.tag ≠ .symbol := by
  intro symbol
  have defined := isDefinedOn_of_supports supported
  rw [symbol] at defined
  cases operator with
  | equal => cases arithmetic
  | _ => cases defined

/-- Operators other than arithmetic ones yield the same boolean on equal operands. -/
theorem compute_boolean {operator : Operator} {operand : ValueType}
    (supported : operator.supports operand) (boolean : operator.isArithmetic = false)
    {left right otherLeft otherRight : Value}
    (typedLeft : left.type == operand) (typedRight : right.type == operand)
    (sameLeft : left == otherLeft) (sameRight : right == otherRight) :
    ∃ truth, operator.compute left right = .ok (.boolean truth) ∧
      operator.compute otherLeft otherRight = .ok (.boolean truth) := by
  have defined := isDefinedOn_of_supports supported
  cases operator
  case equal =>
    have types : (left.type == right.type) = true := BEq.trans typedLeft (BEq.symm typedRight)
    have otherTypes : (otherLeft.type == otherRight.type) = true :=
      BEq.trans (BEq.trans (BEq.symm (Value.beq_iff.1 sameLeft).1) types) (Value.beq_iff.1 sameRight).1
    have truths : (left == right) = (otherLeft == otherRight) :=
      (BEq.congr_left sameLeft).trans (BEq.congr_right sameRight)
    exact ⟨left == right, by simp [compute, types], by simp [compute, otherTypes, truths]⟩
  case less | greater =>
    obtain rfl : operand = .integer := by cases operand <;> first | rfl | cases defined
    obtain ⟨first, rfl⟩ := Value.eq_integer_of_type typedLeft
    obtain ⟨second, rfl⟩ := Value.eq_integer_of_type typedRight
    obtain rfl := Value.eq_integer_of_beq sameLeft
    obtain rfl := Value.eq_integer_of_beq sameRight
    exact ⟨_, rfl, rfl⟩
  case and | or =>
    obtain rfl : operand = .boolean := by cases operand <;> first | rfl | cases defined
    obtain ⟨first, rfl⟩ := Value.eq_boolean_of_type typedLeft
    obtain ⟨second, rfl⟩ := Value.eq_boolean_of_type typedRight
    obtain rfl := Value.eq_boolean_of_beq sameLeft
    obtain rfl := Value.eq_boolean_of_beq sameRight
    exact ⟨_, rfl, rfl⟩
  all_goals cases boolean

/-- An operator gives equal results or the same fault on equal operands of a type that supports it.
-/
theorem compute_agree {operator : Operator} {operand : ValueType}
    (supported : operator.supports operand) {left right otherLeft otherRight : Value}
    (ofLeft : left.WellFormed) (ofRight : right.WellFormed)
    (ofOtherLeft : otherLeft.WellFormed) (ofOtherRight : otherRight.WellFormed)
    (typedLeft : left.type == operand) (typedRight : right.type == operand)
    (sameLeft : left == otherLeft) (sameRight : right == otherRight) :
    Agree (fun first second => first = second ∧ first.IsCalculation)
      (SoundResults (operator.resultType operand))
      (operator.compute left right) (operator.compute otherLeft otherRight) := by
  cases arithmetic : operator.isArithmetic with
  | true =>
      rw [compute_arithmetic arithmetic, compute_arithmetic arithmetic]
      have agree := computeArithmetic_agree arithmetic
        (supports_congr operator typedLeft ▸ supported) ofLeft ofRight ofOtherLeft ofOtherRight
        (BEq.trans typedRight (BEq.symm typedLeft)) sameLeft sameRight
      refine agree.imp (fun _ _ related => related) fun first second sound => ?_
      refine ⟨sound.same, sound.ofFirst, sound.ofSecond, ?_⟩
      rw [resultType, if_pos arithmetic]
      exact BEq.trans sound.typed typedLeft
  | false =>
      obtain ⟨truth, first, second⟩ :=
        compute_boolean supported arithmetic typedLeft typedRight sameLeft sameRight
      rw [first, second]
      refine .ok ⟨BEq.rfl, .boolean truth, .boolean truth, ?_⟩
      simp [resultType, arithmetic, Value.type]

end Operator

end DiceOdds
