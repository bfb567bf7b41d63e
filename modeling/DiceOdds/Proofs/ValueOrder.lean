import DiceOdds.Proofs.Canonical
import DiceOdds.Proofs.Widening

/-
This file compares values form by form. The leaves of two vectors of one space stand in the order of
the dimensions and are equally many in each of them, so the first dimension that differs decides.
-/

namespace DiceOdds

/-- The first entry that is not equality decides about a list of comparisons. -/
def firstDifference (orders : List Ordering) : Ordering :=
  (orders.find? fun order => order != .eq).getD .eq

theorem firstDifference_cons (order : Ordering) (rest : List Ordering) :
    firstDifference (order :: rest) = order.then (firstDifference rest) := by
  cases order <;> rfl

/-- A list is decided in one way exactly when its first difference goes this way. -/
theorem firstDifference_eq_iff {A : Type} {order : A → Ordering} {decides : A → Ordering → Prop}
    {list : List A}
    (differs : ∀ value ∈ list, ∀ found, decides value found ↔ found ≠ .eq ∧ order value = found)
    {result : Ordering} (different : result ≠ .eq) :
    firstDifference (list.map order) = result ↔ IsFirst decides list result := by
  induction list with
  | nil => simp [firstDifference, isFirst_nil, different.symm]
  | cons value rest known =>
      obtain ⟨head, later⟩ := List.forall_mem_cons.1 differs
      rw [List.map_cons, firstDifference_cons, isFirst_cons, ← known later]
      simp only [head]
      cases order value with
      | eq => simp [eq_comm]
      | lt | gt => simp [different]

/-- Beginnings of one length are compared before what follows them. -/
theorem compare_append {first second : List Int} (length : first.length = second.length)
    (left right : List Int) :
    compare (first ++ left) (second ++ right) = (compare first second).then (compare left right) := by
  induction first generalizing second with
  | nil =>
      rw [List.length_eq_zero_iff.1 length.symm]
      rfl
  | cons number rest known =>
      cases second with
      | nil => simp at length
      | cons other others =>
          rw [List.cons_append, List.cons_append, List.compare_cons_cons, List.compare_cons_cons,
            known (by simpa using length), Ordering.then_assoc]

theorem compare_flatMap {A : Type} {first second : A → List Int} {list : List A}
    (length : ∀ value ∈ list, (first value).length = (second value).length) :
    compare (list.flatMap first) (list.flatMap second) =
      firstDifference (list.map fun value => compare (first value) (second value)) := by
  induction list with
  | nil => rfl
  | cons value rest known =>
      obtain ⟨head, later⟩ := List.forall_mem_cons.1 length
      rw [List.flatMap_cons, List.flatMap_cons, compare_append head, known later, List.map_cons,
        firstDifference_cons]

namespace SparseVector

/-- A well-formed vector has a component of the right type in every dimension of its space. -/
theorem exists_component? {vector : SparseVector} (formed : (Value.vector vector).WellFormed)
    {symbol : Symbol} {type : ValueType} (found : vector.space.find? symbol = some type) :
    ∃ value, vector.component? symbol = some value ∧ value.WellFormed ∧ type == value.type := by
  rcases formed with _ | _ | _ | ⟨space, components, ofSpace, ascending, kept, typed, nonzero⟩
  obtain ⟨key, member, same⟩ := Symbol.mem_of_lookup found
  rw [component?, found, Option.map_some]
  cases stored : components.lookup symbol with
  | none => exact ⟨type.zero, by simp, ValueType.zero_wellFormed (ofSpace.inner _ member), by simp⟩
  | some value =>
      rw [Symbol.lookup_congr same] at stored
      obtain ⟨own, inside, agrees⟩ := Value.mem_of_lookup_dimension ofSpace typed member stored
      exact ⟨value, by simp, kept _ inside, agrees⟩

/-- A dimension tells two vectors apart when their components in it are different. -/
def TellsApart (first second : SparseVector) (dimension : Symbol × ValueType) (order : Ordering) :
    Prop :=
  order ≠ .eq ∧ ∃ one other, first.component? dimension.1 = some one ∧
    second.component? dimension.1 = some other ∧ compare one other = order

/-- The components of two vectors are compared dimension by dimension. -/
def orderInTurn (first second : SparseVector) : Ordering :=
  firstDifference (first.space.dimensions.map fun dimension =>
    compare (first.component? dimension.1) (second.component? dimension.1))

section Order

variable {first second : SparseVector} (ofFirst : (Value.vector first).WellFormed)
  (ofSecond : (Value.vector second).WellFormed) (same : first.space == second.space)
include ofFirst ofSecond same

/-- Vectors of one space have comparable components in every dimension. -/
theorem exists_components {dimension : Symbol × ValueType}
    (member : dimension ∈ first.space.dimensions) :
    ∃ one other, first.component? dimension.1 = some one ∧
      second.component? dimension.1 = some other ∧ one.WellFormed ∧ other.WellFormed ∧
      one.type == other.type := by
  have ofSpace : first.space.WellFormed := ofFirst.type_wellFormed
  have found : first.space.find? dimension.1 = some dimension.2 :=
    Symbol.lookup_of_mem ofSpace.ascending member BEq.rfl
  have covered : second.space.covers first.space = true := by
    rw [Space.covers_congr same]
    exact Space.covers_self ofSecond.type_wellFormed
  obtain ⟨type, present, agrees⟩ := find?_of_covers covered found
  obtain ⟨one, reads, formed, typed⟩ := exists_component? ofFirst found
  obtain ⟨other, alsoReads, alsoFormed, alsoTyped⟩ := exists_component? ofSecond present
  exact ⟨one, other, reads, alsoReads, formed, alsoFormed,
    BEq.trans (BEq.symm typed) (BEq.trans (BEq.symm agrees) alsoTyped)⟩

/-- Vectors of one space are compared dimension by dimension. -/
theorem compare_vector :
    compare (Value.vector first) (.vector second) = first.orderInTurn second := by
  have ofSpace : first.space.WellFormed := ofFirst.type_wellFormed
  have covered : first.space.covers second.space = true := by
    rw [← Space.covers_congr same]
    exact Space.covers_self ofSpace
  have types : (Value.vector first).type == (Value.vector second).type :=
    ValueType.vector_beq.trans same
  -- Both vectors are read in the dimensions of the first space.
  rw [Value.compare_of_types types, leaves_eq_flatMap ofFirst,
    ← leaves_congr (BEq.symm same), leaves_embed ofSecond ofSpace covered, compare_flatMap]
  · rw [orderInTurn]
    congr 1
    apply List.map_congr_left
    intro dimension member
    obtain ⟨one, other, reads, also, -, -, types⟩ := exists_components ofFirst ofSecond same member
    rw [reads, also]
    exact (Value.compare_of_types types).symm
  · intro dimension member
    obtain ⟨one, other, reads, also, formed, alsoFormed, types⟩ :=
      exists_components ofFirst ofSecond same member
    rw [reads, also]
    change one.leaves.length = other.leaves.length
    rw [formed.leaves_length, alsoFormed.leaves_length, ValueType.leafCount_congr types]

/-- The first dimension that tells two vectors of one space apart decides between them. -/
theorem compare_vector_iff {order : Ordering} (different : order ≠ .eq) :
    compare (Value.vector first) (.vector second) = order ↔
      IsFirst (first.TellsApart second) first.space.dimensions order := by
  rw [compare_vector ofFirst ofSecond same, orderInTurn]
  apply firstDifference_eq_iff _ different
  intro dimension member found
  obtain ⟨one, other, reads, also, -⟩ := exists_components ofFirst ofSecond same member
  simp only [TellsApart, reads, also, Option.some.injEq, exists_and_left, exists_eq_left']
  rfl

end Order

end SparseVector

namespace TypeTag

/-- The forms of values are ordered as they are listed. -/
def rank : TypeTag → Nat
  | .integer => 0
  | .boolean => 1
  | .symbol => 2
  | .vector => 3

end TypeTag

namespace Value

/-- This function compares values of one form by what they hold, and others by their forms. -/
def orderByForm : Value → Value → Ordering
  | .integer first, .integer second => compare first second
  | .boolean first, .boolean second => compare first second
  | .symbol first, .symbol second => compare first.name second.name
  | .vector first, .vector second =>
      (compare (ValueType.vector first.space) (.vector second.space)).then (first.orderInTurn second)
  | first, second => compare first.tag.rank second.tag.rank

/-- Two values are equal by form when they have one form and hold the same. -/
def equalByForm : Value → Value → Bool
  | .integer first, .integer second => first == second
  | .boolean first, .boolean second => first == second
  | .symbol first, .symbol second => first.name == second.name
  | .vector first, .vector second => (Value.vector first).orderByForm (.vector second) == .eq
  | _, _ => false

section Order

variable {first second : Value} (ofFirst : first.WellFormed) (ofSecond : second.WellFormed)
include ofFirst ofSecond

/-- Well-formed values are compared form by form, and vectors of one space in turn. -/
theorem compare_eq_orderByForm : compare first second = first.orderByForm second := by
  cases first with
  | integer number =>
      cases second with
      | integer other =>
          change compare [number] [other] = compare number other
          rw [List.compare_cons_cons]
          exact Ordering.then_eq
      | boolean | symbol | vector => rfl
  | boolean truth =>
      cases second with
      | boolean other => cases truth <;> cases other <;> rfl
      | integer | symbol | vector => rfl
  | symbol category =>
      cases second with
      | symbol other => exact Ordering.then_eq
      | integer | boolean | vector => rfl
  | vector vector =>
      cases second with
      | vector other =>
          rw [orderByForm]
          by_cases same : vector.space == other.space
          · have types : ValueType.vector vector.space == .vector other.space :=
              ValueType.vector_beq.trans same
            rw [ValueType.beq_iff_compare.1 types, Ordering.eq_then]
            exact SparseVector.compare_vector ofFirst ofSecond same
          · have apart : compare (ValueType.vector vector.space) (.vector other.space) ≠ .eq := by
              rw [Ne, ← ValueType.beq_iff_compare, ValueType.vector_beq]
              exact same
            change (compare (ValueType.vector vector.space) (.vector other.space)).then _ = _
            generalize compare (ValueType.vector vector.space) (.vector other.space) = decided
              at apart ⊢
            cases decided with
            | eq => exact absurd rfl apart
            | lt | gt => rfl
      | integer | boolean | symbol =>
          obtain ⟨⟨dimensions⟩, components⟩ := vector
          rfl

/-- Well-formed values are equal form by form. -/
theorem beq_eq_equalByForm : (first == second) = first.equalByForm second := by
  rw [Bool.eq_iff_iff, beq_iff_compare, compare_eq_orderByForm ofFirst ofSecond]
  cases first <;> cases second <;>
    simp [orderByForm, equalByForm, TypeTag.rank, tag, type, ValueType.tag]

/-- Equal values are zero together. -/
theorem isZero_congr (same : first == second) : first.isZero = second.isZero := by
  have zeros : first.type.zero == second.type.zero := ValueType.zero_congr (beq_iff.1 same).1
  rw [Bool.eq_iff_iff, ofFirst.isZero_iff, ofSecond.isZero_iff]
  constructor
  · intro zero
    exact BEq.trans (BEq.symm same) (BEq.trans zero zeros)
  · intro zero
    exact BEq.trans same (BEq.trans zero (BEq.symm zeros))

end Order

/-- Values are totally ordered, and the order agrees with equality. Values that cannot be told apart
are equal, of equal types, zero together, and stand alike to every other value. Values of one form
are compared by what they hold, and the first dimension in which the components of two vectors of
one space differ decides between these vectors. -/
theorem order_lawful :
    (∀ value : Value, compare value value = .eq) ∧
    (∀ first second : Value, compare second first = (compare first second).swap) ∧
    (∀ first second : Value, (compare first second).isLE → (compare second first).isLE →
      first == second) ∧
    (∀ first second third : Value, (compare first second).isLE → (compare second third).isLE →
      (compare first third).isLE) ∧
    (∀ first second third : Value, first == second →
      compare first third = compare second third) ∧
    (∀ first second : Value, first == second ↔ compare first second = .eq) ∧
    (∀ first second : Value, first.WellFormed → second.WellFormed →
      compare first second = first.orderByForm second ∧
      (first == second) = first.equalByForm second ∧
      (first == second → first.type == second.type ∧ first.isZero = second.isZero)) ∧
    ∀ (first second : SparseVector) (order : Ordering), (Value.vector first).WellFormed →
      (Value.vector second).WellFormed → first.space == second.space → order ≠ .eq →
        (compare (Value.vector first) (.vector second) = order ↔
          IsFirst (first.TellsApart second) first.space.dimensions order) := by
  have antisymm (first second : Value) (before : (compare first second).isLE)
      (after : (compare second first).isLE) : first == second :=
    beq_iff_compare.2 (Std.OrientedCmp.isLE_antisymm before after)
  have congr (first second third : Value) (same : first == second) :
      compare first third = compare second third :=
    Std.TransCmp.congr_left (beq_iff_compare.1 same)
  have byForm (first second : Value) (ofFirst : first.WellFormed) (ofSecond : second.WellFormed) :
      compare first second = first.orderByForm second ∧
      (first == second) = first.equalByForm second ∧
      (first == second → first.type == second.type ∧ first.isZero = second.isZero) :=
    ⟨compare_eq_orderByForm ofFirst ofSecond, beq_eq_equalByForm ofFirst ofSecond,
      fun same => ⟨(beq_iff.1 same).1, isZero_congr ofFirst ofSecond same⟩⟩
  exact ⟨fun _ => Std.ReflCmp.compare_self, fun _ _ => Std.OrientedCmp.eq_swap, antisymm,
    fun _ _ _ => Std.TransCmp.isLE_trans, congr, fun _ _ => beq_iff_compare, byForm,
    fun _ _ _ ofFirst ofSecond same => SparseVector.compare_vector_iff ofFirst ofSecond same⟩

/-- An absent vector reads as zero. It exceeds one that stores a negative number, and the dimension
after it does not count. -/
theorem order_lawful_absent :
    let inner : Space := ⟨[(⟨"a", .tick⟩, .integer), (⟨"b", .tick⟩, .integer)]⟩
    let space : Space := ⟨[(⟨"v", .tick⟩, .vector inner), (⟨"w", .tick⟩, .integer)]⟩
    let first : SparseVector := ⟨space, [(⟨"w", .tick⟩, .integer (-3))]⟩
    let second : SparseVector :=
      ⟨space, [(⟨"v", .colon⟩, .vector ⟨inner, [(⟨"a", .tick⟩, .integer (-1))]⟩)]⟩
    compare (Value.vector first) (.vector second) = .gt ∧
      compare (Value.vector second) (.vector first) = .lt ∧
      (Value.vector first == .vector second) = false ∧
      (Value.vector first).equalByForm (.vector second) = false ∧
      IsFirst (first.TellsApart second) space.dimensions .gt := by
  intro inner space first second
  obtain ⟨-, swap, -, -, -, equal, byForm, decided⟩ := order_lawful
  have ofInner : (ValueType.vector inner).WellFormed :=
    .vector _ (by unfold Symbol.Ascending; decide) (by simp [ValueType.WellFormed.integer])
  have ofSpace : (ValueType.vector space).WellFormed :=
    .vector _ (by unfold Symbol.Ascending; decide) (by simp [ofInner, ValueType.WellFormed.integer])
  have ofFirst : (Value.vector first).WellFormed :=
    SparseVector.single_wellFormed ofSpace rfl (.integer (-3) (by decide)) BEq.rfl rfl
  have ofComponent : (Value.vector ⟨inner, [(⟨"a", .tick⟩, .integer (-1))]⟩).WellFormed :=
    SparseVector.single_wellFormed ofInner rfl (.integer (-1) (by decide)) BEq.rfl rfl
  have ofSecond : (Value.vector second).WellFormed :=
    SparseVector.single_wellFormed ofSpace rfl ofComponent BEq.rfl rfl
  have greater : compare (Value.vector first) (.vector second) = .gt := by decide
  have apart : (Value.vector first == .vector second) = false := by
    rw [Bool.eq_false_iff, Ne, equal, greater]
    decide
  have same : first.space == second.space := BEq.rfl
  refine ⟨greater, ?_, apart, ?_, ?_⟩
  · rw [swap, greater]
    rfl
  · rw [← (byForm _ _ ofFirst ofSecond).2.1, apart]
  · exact (decided first second .gt ofFirst ofSecond same (by decide)).1 greater

end Value

end DiceOdds
