import DiceOdds.Proofs.CommonType

/-
This file says which binary expressions can be built. Once an operation is settled, both operands
convert to its operand type, so an operator without an operation is the only reason to fail. The
grouping of three operands decides neither whether they can be built nor the type of the whole.
-/

namespace DiceOdds

namespace Expression

theorem exists_coerce? {source : Expression} {target : ValueType}
    (converts : source.type.Converts target) :
    ∃ expression, source.coerce? target = .ok expression := by
  unfold coerce?
  split
  · exact ⟨source, rfl⟩
  · exact ⟨.converted source target, by rw [convert?, converts]; rfl⟩

variable {left right expression : Expression} {operator : Operator}

/-- Both operands convert to the operand type of their operation. -/
theorem exists_coerce?_of_find? (ofLeft : left.type.WellFormed) (ofRight : right.type.WellFormed)
    {operation : Operation} (found : Operation.find? operator left.type right.type = some operation) :
    (∃ first, left.coerce? operation.operand = .ok first) ∧
      ∃ second, right.coerce? operation.operand = .ok second := by
  obtain ⟨common, -, -⟩ := Operation.find?_eq_some found
  have bound := ValueType.common?_isLeastUpperBound ofLeft ofRight common
  exact ⟨exists_coerce? bound.ofFirst, exists_coerce? bound.ofSecond⟩

theorem exists_binary? (ofLeft : left.type.WellFormed) (ofRight : right.type.WellFormed)
    {operation : Operation} (found : Operation.find? operator left.type right.type = some operation) :
    ∃ expression, left.binary? operator right = .ok expression := by
  obtain ⟨⟨first, madeFirst⟩, second, madeSecond⟩ := exists_coerce?_of_find? ofLeft ofRight found
  refine ⟨.binary first operation second, ?_⟩
  simp only [binary?, found, madeFirst, madeSecond]
  rfl

/-- A binary expression that cannot be built has an operator without an operation. -/
theorem binary?_eq_error_iff (ofLeft : left.type.WellFormed) (ofRight : right.type.WellFormed)
    {fault : Fault} :
    left.binary? operator right = .error fault ↔
      Operation.find? operator left.type right.type = none ∧
        fault = .undefinedOperator operator left.type right.type := by
  cases found : Operation.find? operator left.type right.type with
  | none => simp [binary?, found, eq_comm]
  | some operation =>
      obtain ⟨expression, made⟩ := exists_binary? ofLeft ofRight found
      simp [made]

/-- The result of an operation is its operand type or a boolean. -/
theorem binary?_type_wellFormed (ofLeft : left.type.WellFormed) (ofRight : right.type.WellFormed)
    (made : left.binary? operator right = .ok expression) : expression.type.WellFormed := by
  obtain ⟨operation, first, second, found, -, -, rfl⟩ := binary?_eq_ok made
  obtain ⟨common, -, -⟩ := Operation.find?_eq_some found
  obtain ⟨-, -, result⟩ := Operation.settled_of_find? found
  rw [type, result, Operator.resultType]
  split
  · exact ValueType.common?_wellFormed ofLeft ofRight common
  · exact .boolean

section Arithmetic

variable (ofLeft : left.type.WellFormed) (ofRight : right.type.WellFormed)
  (arithmetic : operator.isArithmetic)
include ofLeft ofRight arithmetic

/-- An arithmetic expression can be built when both operands convert to a type with its operator. -/
theorem exists_binary?_iff : (∃ expression, left.binary? operator right = .ok expression) ↔
    ∃ bound, operator.supports bound = true ∧ left.type.Converts bound ∧
      right.type.Converts bound := by
  constructor
  · rintro ⟨expression, made⟩
    obtain ⟨operation, -, -, found, -, -, -⟩ := binary?_eq_ok made
    obtain ⟨common, supported, -⟩ := Operation.find?_eq_some found
    have least := ValueType.common?_isLeastUpperBound ofLeft ofRight common
    exact ⟨operation.operand, supported, least.ofFirst, least.ofSecond⟩
  · rintro ⟨bound, supported, above, also⟩
    obtain ⟨operation, found⟩ := Operation.exists_find?_of_converts ofLeft ofRight
      (Operator.tag_ne_symbol arithmetic supported) above also supported
    exact exists_binary? ofLeft ofRight found

/-- The type of an arithmetic expression is the least one that receives both operands. -/
theorem binary?_type (made : left.binary? operator right = .ok expression) :
    operator.supports expression.type = true ∧ ∀ bound, operator.supports bound = true →
      (expression.type.Converts bound ↔ left.type.Converts bound ∧ right.type.Converts bound) := by
  obtain ⟨operation, first, second, found, -, -, rfl⟩ := binary?_eq_ok made
  obtain ⟨common, supported, -⟩ := Operation.find?_eq_some found
  obtain ⟨same, -, result⟩ := Operation.settled_of_find? found
  have least := ValueType.common?_isLeastUpperBound ofLeft ofRight common
  rw [type, result, same, Operator.resultType, if_pos arithmetic]
  refine ⟨supported, fun bound supports => ?_⟩
  constructor
  · intro converts
    exact ⟨ValueType.converts_trans least.ofFirst converts,
      ValueType.converts_trans least.ofSecond converts⟩
  · rintro ⟨above, also⟩
    exact least.least bound (Operator.tag_ne_symbol arithmetic supports) above also

end Arithmetic

section Regrouping

variable {middle : Expression} (ofLeft : left.type.WellFormed) (ofMiddle : middle.type.WellFormed)
  (ofRight : right.type.WellFormed) (arithmetic : operator.isArithmetic)
include ofLeft ofMiddle ofRight arithmetic

/-- Three operands have a left group when all of them convert to a type with the operator. -/
theorem exists_leftGroup_iff : (∃ inner, left.binary? operator middle = .ok inner ∧
      ∃ expression, inner.binary? operator right = .ok expression) ↔
    ∃ bound, operator.supports bound = true ∧ left.type.Converts bound ∧
      middle.type.Converts bound ∧ right.type.Converts bound := by
  constructor
  · rintro ⟨inner, made, built⟩
    have ofInner := binary?_type_wellFormed ofLeft ofMiddle made
    obtain ⟨bound, supported, above, also⟩ := (exists_binary?_iff ofInner ofRight arithmetic).1 built
    obtain ⟨first, second⟩ := ((binary?_type ofLeft ofMiddle arithmetic made).2 bound supported).1 above
    exact ⟨bound, supported, first, second, also⟩
  · rintro ⟨bound, supported, first, second, also⟩
    obtain ⟨inner, made⟩ :=
      (exists_binary?_iff ofLeft ofMiddle arithmetic).2 ⟨bound, supported, first, second⟩
    have ofInner := binary?_type_wellFormed ofLeft ofMiddle made
    have above := ((binary?_type ofLeft ofMiddle arithmetic made).2 bound supported).2 ⟨first, second⟩
    exact ⟨inner, made, (exists_binary?_iff ofInner ofRight arithmetic).2
      ⟨bound, supported, above, also⟩⟩

theorem exists_rightGroup_iff : (∃ inner, middle.binary? operator right = .ok inner ∧
      ∃ expression, left.binary? operator inner = .ok expression) ↔
    ∃ bound, operator.supports bound = true ∧ left.type.Converts bound ∧
      middle.type.Converts bound ∧ right.type.Converts bound := by
  constructor
  · rintro ⟨inner, made, built⟩
    have ofInner := binary?_type_wellFormed ofMiddle ofRight made
    obtain ⟨bound, supported, above, also⟩ := (exists_binary?_iff ofLeft ofInner arithmetic).1 built
    exact ⟨bound, supported, above,
      ((binary?_type ofMiddle ofRight arithmetic made).2 bound supported).1 also⟩
  · rintro ⟨bound, supported, above, both⟩
    obtain ⟨inner, made⟩ :=
      (exists_binary?_iff ofMiddle ofRight arithmetic).2 ⟨bound, supported, both⟩
    have ofInner := binary?_type_wellFormed ofMiddle ofRight made
    have also := ((binary?_type ofMiddle ofRight arithmetic made).2 bound supported).2 both
    exact ⟨inner, made, (exists_binary?_iff ofLeft ofInner arithmetic).2
      ⟨bound, supported, above, also⟩⟩

/-- Both groups have the least type with the operator that receives all three operands. -/
theorem regrouped_type {first second whole other : Expression}
    (madeFirst : left.binary? operator middle = .ok first)
    (madeWhole : first.binary? operator right = .ok whole)
    (madeSecond : middle.binary? operator right = .ok second)
    (madeOther : left.binary? operator second = .ok other) : whole.type == other.type := by
  have ofFirst := binary?_type_wellFormed ofLeft ofMiddle madeFirst
  have ofSecond := binary?_type_wellFormed ofMiddle ofRight madeSecond
  have ofWhole := binary?_type_wellFormed ofFirst ofRight madeWhole
  have ofOther := binary?_type_wellFormed ofLeft ofSecond madeOther
  obtain ⟨-, receivesFirst⟩ := binary?_type ofLeft ofMiddle arithmetic madeFirst
  obtain ⟨-, receivesSecond⟩ := binary?_type ofMiddle ofRight arithmetic madeSecond
  obtain ⟨supportsWhole, receivesWhole⟩ := binary?_type ofFirst ofRight arithmetic madeWhole
  obtain ⟨supportsOther, receivesOther⟩ := binary?_type ofLeft ofSecond arithmetic madeOther
  have same (bound : ValueType) (supported : operator.supports bound = true) :
      whole.type.Converts bound ↔ other.type.Converts bound := by
    rw [receivesWhole bound supported, receivesOther bound supported, receivesFirst bound supported,
      receivesSecond bound supported, and_assoc]
  apply ValueType.converts_antisymm ofWhole ofOther
  · exact (same _ supportsOther).2 (ValueType.converts_self ofOther)
  · exact (same _ supportsWhole).1 (ValueType.converts_self ofWhole)

end Regrouping

end Expression

end DiceOdds
