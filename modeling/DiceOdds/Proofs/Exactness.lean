import DiceOdds.Proofs.Canonical
import DiceOdds.Proofs.Dispatch
import DiceOdds.Proofs.LeafPath

/-
This file shows that arithmetic is exact. It succeeds when the operands have a representable exact
result at every path of their type, its result has these leaves, and otherwise the first path at fault
decides.
-/

namespace DiceOdds

namespace Operator

/-- These are the exact results of arithmetic on integers. Quotients are truncated toward zero, and
nothing is divided by zero. -/
inductive Exact : Operator → Int → Int → Int → Prop where
  | add (left right : Int) : Exact .add left right (left + right)
  | subtract (left right : Int) : Exact .subtract left right (left - right)
  | multiply (left right : Int) : Exact .multiply left right (left * right)
  | divide (left right : Int) (nonzero : right ≠ 0) : Exact .divide left right (left.tdiv right)

/-- These integers have an exact result, and it is representable. -/
def HasResult (operator : Operator) (left right : Int) : Prop :=
  ∃ result, operator.Exact left right result ∧ Representable result

/-- These integers have no representable exact result, and the fault names them. -/
def FailsWith (operator : Operator) (left right : Int) (fault : Fault) : Prop :=
  ¬operator.HasResult left right ∧
    fault = if operator = .divide ∧ right = 0 then .divisionByZero left
      else .overflow operator left right

theorem exact_iff {operator : Operator} {left right result : Int} :
    operator.Exact left right result ↔
      ¬(operator = .divide ∧ right = 0) ∧ operator.exactResult? left right = some result := by
  constructor
  · rintro (_ | _ | _ | ⟨_, _, nonzero⟩) <;> simp_all [exactResult?]
  · rintro ⟨nonzero, found⟩
    cases operator <;> simp only [exactResult?, Option.some.injEq, reduceCtorEq] at found
    case add => exact found ▸ .add left right
    case subtract => exact found ▸ .subtract left right
    case multiply => exact found ▸ .multiply left right
    case divide => exact found ▸ .divide left right (by simpa using nonzero)

theorem integerResult_eq_ok_iff_exact {operator : Operator} {left right result : Int} :
    operator.integerResult left right = .ok result ↔
      operator.Exact left right result ∧ Representable result := by
  rw [integerResult_eq_ok_iff, exact_iff, and_assoc]

theorem integerResult_eq_error_iff {operator : Operator} (arithmetic : operator.isArithmetic)
    {left right : Int} {fault : Fault} :
    operator.integerResult left right = .error fault ↔ operator.FailsWith left right fault := by
  simp only [FailsWith, HasResult, ← integerResult_eq_ok_iff_exact]
  cases computed : operator.integerResult left right with
  | ok result => simp
  | error reason => simp [integerResult_error arithmetic computed, eq_comm]

section Supported

variable {operator : Operator} (arithmetic : operator.isArithmetic) {operand : ValueType}
  (supported : operator.supports operand) {left right : Value} (ofLeft : left.WellFormed)
  (ofRight : right.WellFormed) (typedLeft : left.type == operand)
  (typedRight : right.type == operand)
include arithmetic supported ofLeft ofRight typedLeft typedRight

/-- A result has the exact results of the leaves of its operands. -/
theorem compute_ok {result : Value} (computed : operator.compute left right = .ok result) :
    result.WellFormed ∧ result.type == operand ∧ ∀ path ∈ operand.paths,
      operator.Exact (left.leafAt path) (right.leafAt path) (result.leafAt path) := by
  have agree := compute_agree_paths arithmetic supported ofLeft ofRight typedLeft typedRight
  rw [computed] at agree
  obtain ⟨leaves, ran, formed, typed, rfl⟩ := agree.symm.exists_of_ok
  refine ⟨formed, typed, fun path inside => ?_⟩
  rw [Except.mapM_eq_ok_iff, List.map_map] at ran
  exact (integerResult_eq_ok_iff_exact.1 (List.map_inj_left.1 ran path inside)).1

/-- Arithmetic succeeds when the leaves of its operands have results. -/
theorem exists_compute_iff :
    (∃ result, operator.compute left right = .ok result) ↔
      ∀ path ∈ operand.paths, operator.HasResult (left.leafAt path) (right.leafAt path) := by
  simp only [HasResult, ← integerResult_eq_ok_iff_exact]
  rw [← Except.exists_mapM_iff]
  exact (compute_agree_paths arithmetic supported ofLeft ofRight typedLeft typedRight).exists_iff

/-- Arithmetic fails with the fault of the first leaves without a result. -/
theorem compute_eq_error_iff {fault : Fault} :
    operator.compute left right = .error fault ↔
      IsFirst (fun path reason =>
        operator.FailsWith (left.leafAt path) (right.leafAt path) reason) operand.paths fault := by
  simp only [← integerResult_eq_error_iff arithmetic]
  rw [← Except.mapM_eq_error_iff]
  exact (compute_agree_paths arithmetic supported ofLeft ofRight typedLeft typedRight).eq_error_iff

end Supported

@[simp] theorem exact_add_iff {left right result : Int} :
    Exact .add left right result ↔ result = left + right := by
  simp [exact_iff, exactResult?, eq_comm]

@[simp] theorem exact_subtract_iff {left right result : Int} :
    Exact .subtract left right result ↔ result = left - right := by
  simp [exact_iff, exactResult?, eq_comm]

/-- Sums are supported where differences are. -/
theorem supports_add (type : ValueType) : Operator.add.supports type = subtract.supports type := by
  induction type using ValueType.induction with
  | integer | boolean | symbol => rfl
  | vector dimensions known =>
      have inner : add.supportsAll dimensions = subtract.supportsAll dimensions := by
        rw [supportsAll_eq_all, supportsAll_eq_all, Bool.eq_iff_iff, List.all_eq_true,
          List.all_eq_true]
        exact forall₂_congr fun dimension member => by rw [known dimension member]
      rw [supports, supports, inner]
      rfl

/-- Differences are supported where any arithmetic is. -/
theorem supports_subtract {operator : Operator} (arithmetic : operator.isArithmetic)
    {type : ValueType} (supported : operator.supports type) : subtract.supports type := by
  have defined := isDefinedOn_of_supports supported
  cases operator with
  | subtract => exact supported
  | add => rwa [supports_add] at supported
  | multiply | divide => cases type <;> first | rfl | cases defined
  | less | greater | equal | and | or => cases arithmetic

section Differences

variable {operand : ValueType} (supported : subtract.supports operand) {left right : Value}
  (ofLeft : left.WellFormed) (typedLeft : left.type == operand)
include supported ofLeft typedLeft

/-- A value minus itself is zero. -/
theorem compute_subtract_self :
    ∃ nothing, subtract.compute left left = .ok nothing ∧ nothing.isZero = true := by
  obtain ⟨nothing, computed⟩ := (exists_compute_iff rfl supported ofLeft ofLeft typedLeft
    typedLeft).2 fun path _ => ⟨0, by simp, by decide⟩
  obtain ⟨formed, typed, exact⟩ := compute_ok rfl supported ofLeft ofLeft typedLeft typedLeft computed
  refine ⟨nothing, computed, formed.isZero_of_leaves fun leaf member => ?_⟩
  rw [formed.leaves_eq_map, ValueType.paths_congr typed] at member
  obtain ⟨path, inside, rfl⟩ := List.mem_map.1 member
  simpa using exact path inside

/-- A sum minus its second operand is the first one. -/
theorem compute_subtract_add (ofRight : right.WellFormed) (typedRight : right.type == operand)
    {total : Value} (added : Operator.add.compute left right = .ok total) :
    ∃ back, subtract.compute total right = .ok back ∧ back == left := by
  obtain ⟨ofTotal, typedTotal, sums⟩ := compute_ok rfl (supports_add operand ▸ supported) ofLeft
    ofRight typedLeft typedRight added
  have exact (path : List String) (inside : path ∈ operand.paths) :
      total.leafAt path - right.leafAt path = left.leafAt path := by
    have sum := exact_add_iff.1 (sums path inside)
    omega
  obtain ⟨back, computed⟩ := (exists_compute_iff rfl supported ofTotal ofRight typedTotal
    typedRight).2 fun path inside => ⟨left.leafAt path, by simp [exact path inside],
      ofLeft.leafAt_representable path⟩
  obtain ⟨ofBack, typedBack, differences⟩ := compute_ok rfl supported ofTotal ofRight typedTotal
    typedRight computed
  refine ⟨back, computed, Value.beq_of_leafAt ofBack ofLeft (BEq.trans typedBack
    (BEq.symm typedLeft)) fun path inside => ?_⟩
  rw [ValueType.paths_congr typedLeft] at inside
  rw [exact_subtract_iff.1 (differences path inside), exact path inside]

end Differences

end Operator

namespace Operation

/-- An operator with an operation on a type is supported by the type, unless this is the type of a
symbol. -/
theorem supports_of_find? {operator : Operator} {type : ValueType} {operation : Operation}
    (formed : type.WellFormed) (notSymbol : type.tag ≠ .symbol)
    (found : find? operator type type = some operation) : operator.supports type := by
  obtain ⟨common, supported, -⟩ := find?_eq_some found
  exact Operator.supports_of_converts notSymbol
    (ValueType.common?_isLeastUpperBound formed formed common).ofFirst supported

/-- Arithmetic on integers and vectors is exact. It succeeds when the operands have a representable
exact result at every path of their type, the result has these leaves, and otherwise the first path
without such a result decides the fault. A value minus itself is zero, and a sum minus its second
operand is the first one. -/
theorem compute_exact {operator : Operator} {type : ValueType} {operation : Operation}
    {left right : Value} (arithmetic : operator.isArithmetic)
    (shape : type.tag = .integer ∨ type.tag = .vector)
    (found : find? operator type type = some operation) (ofLeft : left.WellFormed)
    (ofRight : right.WellFormed) (typedLeft : left.type == type) (typedRight : right.type == type) :
    ((∃ result, operation.compute left right = .ok result) ↔
      ∀ path ∈ type.paths, operator.HasResult (left.leafAt path) (right.leafAt path)) ∧
    (∀ result, operation.compute left right = .ok result → result.type == type ∧
      ∀ path ∈ type.paths,
        operator.Exact (left.leafAt path) (right.leafAt path) (result.leafAt path)) ∧
    (∀ fault, operation.compute left right = .error fault →
      IsFirst (fun path reason =>
        operator.FailsWith (left.leafAt path) (right.leafAt path) reason) type.paths fault) ∧
    ∃ sum difference, find? .add type type = some sum ∧
      find? .subtract type type = some difference ∧
      (∃ nothing, difference.compute left left = .ok nothing ∧ nothing.isZero = true) ∧
      ∀ total, sum.compute left right = .ok total →
        ∃ back, difference.compute total right = .ok back ∧ back == left := by
  have formed := ofLeft.type_wellFormed.congr typedLeft
  have notSymbol : type.tag ≠ .symbol := by rcases shape with same | same <;> simp [same]
  have supported := supports_of_find? formed notSymbol found
  have differences := Operator.supports_subtract arithmetic supported
  obtain ⟨sum, foundSum⟩ :=
    exists_find?_of_supports formed (Operator.supports_add type ▸ differences)
  obtain ⟨difference, foundDifference⟩ := exists_find?_of_supports formed differences
  simp only [compute_of_find? found]
  refine ⟨?_, fun result computed => ?_, fun fault failed => ?_, sum, difference, foundSum,
    foundDifference, ?_⟩
  · exact Operator.exists_compute_iff arithmetic supported ofLeft ofRight typedLeft typedRight
  · exact (Operator.compute_ok arithmetic supported ofLeft ofRight typedLeft typedRight computed).2
  · exact (Operator.compute_eq_error_iff arithmetic supported ofLeft ofRight typedLeft
      typedRight).1 failed
  · simp only [compute_of_find? foundSum, compute_of_find? foundDifference]
    exact ⟨Operator.compute_subtract_self differences ofLeft typedLeft, fun total added =>
      Operator.compute_subtract_add differences ofLeft typedLeft ofRight typedRight added⟩

/-- A nested sum fails at its second leaf, although the first leaves have a sum. -/
theorem compute_exact_nested :
    let inner : Space := ⟨[(⟨"a", .tick⟩, .integer), (⟨"b", .tick⟩, .integer)]⟩
    let outer : Space := ⟨[(⟨"v", .tick⟩, .vector inner)]⟩
    let nested (components : List (Symbol × Value)) : Value :=
      .vector ⟨outer, [(⟨"v", .tick⟩, .vector ⟨inner, components⟩)]⟩
    let left := nested [(⟨"a", .tick⟩, .integer 2), (⟨"b", .tick⟩, .integer greatestInteger)]
    let right := nested [(⟨"b", .tick⟩, .integer 1)]
    let sum : Operation := ⟨.add, .vector outer, .vector outer⟩
    find? .add (.vector outer) (.vector outer) = some sum ∧ left.WellFormed ∧ right.WellFormed ∧
      Operator.add.HasResult (left.leafAt ["v", "a"]) (right.leafAt ["v", "a"]) ∧
      ∃ fault, sum.compute left right = .error fault ∧
        IsFirst (fun path reason => Operator.add.FailsWith (left.leafAt path) (right.leafAt path)
          reason) [["v", "a"], ["v", "b"]] fault := by
  intro inner outer nested left right sum
  have found : find? .add (.vector outer) (.vector outer) = some sum := rfl
  have ofInner : (ValueType.vector inner).WellFormed := .vector _ (by unfold Symbol.Ascending; decide)
    (by simp [ValueType.WellFormed.integer])
  have ofOuter : outer.WellFormed :=
    .vector _ (List.pairwise_singleton _ _) (List.forall_mem_singleton.2 ofInner)
  have greatest : (Value.integer greatestInteger).WellFormed := .integer _ (by decide)
  have pair : SparseVector.ofComponents? inner
      [(⟨"a", .tick⟩, .integer 2), (⟨"b", .tick⟩, .integer greatestInteger)] = .ok ⟨inner, _⟩ := rfl
  have ofPair := (SparseVector.ofComponents?_wellFormed ofInner (List.forall_mem_cons.2
    ⟨.integer 2 (by decide), List.forall_mem_singleton.2 greatest⟩) pair).1
  have ofLeft : left.WellFormed := SparseVector.single_wellFormed ofOuter rfl ofPair BEq.rfl rfl
  have ofOne : (Value.vector ⟨inner, [(⟨"b", .tick⟩, .integer 1)]⟩).WellFormed :=
    SparseVector.single_wellFormed ofInner rfl (.integer 1 (by decide)) BEq.rfl rfl
  have ofRight : right.WellFormed := SparseVector.single_wellFormed ofOuter rfl ofOne BEq.rfl rfl
  have failed : sum.compute left right = .error (.overflow .add greatestInteger 1) := rfl
  obtain ⟨-, -, faults, -⟩ := compute_exact rfl (.inr rfl) found ofLeft ofRight BEq.rfl BEq.rfl
  exact ⟨found, ofLeft, ofRight, ⟨2, .add 2 0, by decide⟩, _, failed, faults _ failed⟩

end Operation

end DiceOdds
