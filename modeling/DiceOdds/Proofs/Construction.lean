import DiceOdds.Expression
import DiceOdds.Proofs.Computation

/-
This file opens the constructors of values, types and expressions. What they build is well formed,
and a binary expression has operands of the operand type of its operation.
-/

namespace DiceOdds

/-- These are the types that the constructors of types and spaces can build. -/
inductive ValueType.Built : ValueType → Prop where
  | integer : Built .integer
  | boolean : Built .boolean
  | symbol (category : Symbol) : Built (.symbol category)
  | unit (category : Symbol) : Built (.vector (.unit category))
  | listed {dimensions : List (Symbol × ValueType)} {space : Space}
      (inner : ∀ dimension ∈ dimensions, Built dimension.2)
      (made : Space.ofDimensions? dimensions = .ok space) : Built (.vector space)
  | joined {first second space : Space} (left : Built (.vector first))
      (right : Built (.vector second)) (made : first.join? second = .ok space) :
      Built (.vector space)

/-- These are the values that the constructors of values and vectors can build. -/
inductive Value.Built : Value → Prop where
  | integer (number : Int) (representable : Representable number) : Built (.integer number)
  | boolean (truth : Bool) : Built (.boolean truth)
  | symbol (category : Symbol) : Built (.symbol category)
  | zero {space : Space} (ofSpace : (ValueType.vector space).Built) :
      Built (.vector (.zero space))
  | unit (category : Symbol) : Built (.vector (.unit category))
  | listed {space : Space} {components : List (Symbol × Value)} {vector : SparseVector}
      (ofSpace : (ValueType.vector space).Built)
      (stored : ∀ component ∈ components, Built component.2)
      (made : SparseVector.ofComponents? space components = .ok vector) : Built (.vector vector)
  | embedded {vector wide : SparseVector} {target : Space} (inner : Built (.vector vector))
      (ofTarget : (ValueType.vector target).Built) (made : vector.embed? target = .ok wide) :
      Built (.vector wide)

/-- These are the trees that the constructors of expressions can build, with any numbers in their
pools. -/
inductive Expression.Built : Expression → Prop where
  | constant {value : Value} (built : value.Built) : Built (.constant value)
  | pool (dice : DicePool) : Built (.pool dice)
  | bracketed {inner : Expression} (built : Built inner) : Built (.bracketed inner)
  | converted {source expression : Expression} {target : ValueType} (built : Built source)
      (ofTarget : target.Built) (made : source.convert? target = .ok expression) : Built expression
  | coerced {source expression : Expression} {target : ValueType} (built : Built source)
      (ofTarget : target.Built) (made : source.coerce? target = .ok expression) : Built expression
  | binary {left right expression : Expression} {operator : Operator} (ofLeft : Built left)
      (ofRight : Built right) (made : left.binary? operator right = .ok expression) :
      Built expression

theorem ValueType.Built.wellFormed {type : ValueType} (built : type.Built) : type.WellFormed := by
  induction built with
  | integer => exact .integer
  | boolean => exact .boolean
  | symbol category => exact .symbol category
  | unit category => exact Space.unit_wellFormed category
  | listed inner made known => exact Space.extendAll?_wellFormed Space.empty_wellFormed known made
  | joined left right made ofLeft ofRight =>
      exact Space.extendAll?_wellFormed ofLeft (Space.WellFormed.inner ofRight) made

theorem Value.Built.wellFormed {value : Value} (built : value.Built) : value.WellFormed := by
  induction built with
  | integer number representable => exact .integer number representable
  | boolean truth => exact .boolean truth
  | symbol category => exact .symbol category
  | zero ofSpace => exact SparseVector.zero_wellFormed ofSpace.wellFormed
  | unit category => exact SparseVector.unit_wellFormed category
  | listed ofSpace stored made known =>
      exact (SparseVector.ofComponents?_wellFormed ofSpace.wellFormed known made).1
  | embedded inner ofTarget made known =>
      exact (SparseVector.embed?_wellFormed known ofTarget.wellFormed made).1

/-- A settled operation has a common operand type that supports its operator. -/
theorem Operation.find?_eq_some {operator : Operator} {left right : ValueType}
    {operation : Operation} (found : Operation.find? operator left right = some operation) :
    left.common? right = some operation.operand ∧ operator.supports operation.operand = true ∧
      operation = ⟨operator, operation.operand, operator.resultType operation.operand⟩ := by
  unfold find? at found
  split at found
  · cases found
  · next operand common =>
      split at found
      · next supported =>
          cases found
          exact ⟨common, supported, rfl⟩
      · cases found

/-- The result of a settled operation follows from its operand type. -/
theorem Operation.settled_of_find? {left right : ValueType} {operator : Operator} {operation : Operation}
    (found : Operation.find? operator left right = some operation) :
    operation.operator = operator ∧ operation.operator.supports operation.operand = true ∧
      operation.result = operation.operator.resultType operation.operand := by
  obtain ⟨-, supported, settled⟩ := find?_eq_some found
  have same : operation.operator = operator := by rw [settled]
  refine ⟨same, by rw [same]; exact supported, ?_⟩
  rw [same, settled]

namespace Expression

theorem convert?_eq_ok {source expression : Expression} {target : ValueType}
    (made : source.convert? target = .ok expression) :
    source.type.convertsTo target = true ∧ expression = .converted source target := by
  obtain ⟨⟨⟩, checked, made⟩ := Except.bind_eq_ok made
  cases made
  unfold ValueType.checkConversion at checked
  split at checked
  · next converts => exact ⟨converts, rfl⟩
  · cases checked

/-- An expression is coerced by leaving it or by converting it. -/
theorem coerce?_eq_ok {source expression : Expression} {target : ValueType}
    (made : source.coerce? target = .ok expression) :
    (source.type == target ∧ expression = source) ∨
      (source.type.convertsTo target = true ∧ expression = .converted source target) := by
  unfold coerce? at made
  split at made
  · next same =>
      cases made
      exact .inl ⟨same, rfl⟩
  · exact .inr (convert?_eq_ok made)

theorem coerce?_type {source expression : Expression} {target : ValueType}
    (made : source.coerce? target = .ok expression) : expression.type == target := by
  rcases coerce?_eq_ok made with ⟨same, rfl⟩ | ⟨-, rfl⟩
  · exact same
  · exact BEq.rfl

/-- A binary expression has both operands coerced to the operand type of its operation. -/
theorem binary?_eq_ok {left right expression : Expression} {operator : Operator}
    (made : left.binary? operator right = .ok expression) :
    ∃ operation first second, Operation.find? operator left.type right.type = some operation ∧
      left.coerce? operation.operand = .ok first ∧ right.coerce? operation.operand = .ok second ∧
      expression = .binary first operation second := by
  unfold binary? at made
  split at made
  · cases made
  · next operation found =>
      obtain ⟨first, ofLeft, made⟩ := Except.bind_eq_ok made
      obtain ⟨second, ofRight, made⟩ := Except.bind_eq_ok made
      cases made
      exact ⟨operation, first, second, found, ofLeft, ofRight, rfl⟩

end Expression

end DiceOdds
