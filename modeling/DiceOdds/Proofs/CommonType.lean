import DiceOdds.Proofs.Construction
import DiceOdds.Proofs.SpaceJoin

/-
This file shows that conversions order the types and that the common type of two types is their
least upper bound. Operations follow: they do not depend on the order of their operand types.
-/

namespace DiceOdds

namespace ValueType

/-- A type converts to another one when a conversion between them is accepted. -/
def Converts (source target : ValueType) : Prop :=
  source.checkConversion target = .ok ()

theorem converts_iff {source target : ValueType} :
    source.Converts target ↔ source.convertsTo target = true := by
  rw [Converts, checkConversion]
  cases source.convertsTo target <;> simp

/-- A type that lives in a space converts to the vectors of the spaces that cover it. -/
theorem converts_vector_iff {source : ValueType} {space wide : Space}
    (lives : source.space? = some space) :
    source.Converts (.vector wide) ↔ wide.covers space = true := by
  rw [converts_iff]
  cases source with
  | integer | boolean => cases lives
  | vector own =>
      cases lives
      rfl
  | symbol category =>
      cases lives
      constructor
      · exact Value.covers_unit
      · intro covered
        obtain ⟨type, found, same⟩ := SparseVector.find?_of_covers covered
          (show (Space.unit category).find? category = some .integer by
            simp [Space.find?, Space.unit])
        obtain rfl := eq_integer_of_beq same
        simp [convertsTo, found]

theorem converts_self {type : ValueType} (formed : type.WellFormed) : type.Converts type := by
  rw [converts_iff]
  cases formed with
  | integer | boolean => rfl
  | symbol category => exact BEq.rfl
  | vector dimensions ascending inner => exact Space.covers_self (.vector dimensions ascending inner)

/-- Only integers convert to integers, and likewise for booleans. -/
theorem converts_integer_iff {source : ValueType} : source.Converts .integer ↔ source = .integer := by
  rw [converts_iff]
  cases source <;> simp [convertsTo]

theorem converts_boolean_iff {source : ValueType} : source.Converts .boolean ↔ source = .boolean := by
  rw [converts_iff]
  cases source <;> simp [convertsTo]

theorem converts_symbol_iff {source : ValueType} {category : Symbol} :
    source.Converts (.symbol category) ↔ source == .symbol category := by
  rw [converts_iff]
  constructor
  · intro converts
    cases source with
    | symbol other => rwa [symbol_beq]
    | integer | boolean | vector => cases converts
  · intro same
    obtain ⟨other, rfl, agrees⟩ := eq_symbol_of_beq same
    exact agrees

/-- What converts to a vector lives in a space. -/
theorem exists_space_of_converts {source : ValueType} {wide : Space}
    (converts : source.Converts (.vector wide)) : ∃ space, source.space? = some space := by
  cases source with
  | integer | boolean => cases converts
  | symbol category => exact ⟨_, rfl⟩
  | vector space => exact ⟨_, rfl⟩

theorem converts_congr {first second : ValueType} (same : first == second) (target : ValueType) :
    first.Converts target ↔ second.Converts target := by
  rw [converts_iff, converts_iff, convertsTo_congr same]

theorem converts_trans {first second third : ValueType} (before : first.Converts second)
    (after : second.Converts third) : first.Converts third := by
  cases second with
  | integer =>
      obtain rfl := converts_integer_iff.1 before
      exact after
  | boolean =>
      obtain rfl := converts_boolean_iff.1 before
      exact after
  | symbol category => exact (converts_congr (converts_symbol_iff.1 before) third).2 after
  | vector middle =>
      cases third with
      | integer | boolean | symbol => cases after
      | vector wide =>
          obtain ⟨space, lives⟩ := exists_space_of_converts before
          have inner := (converts_vector_iff lives).1 before
          have outer := (converts_vector_iff rfl).1 after
          exact (converts_vector_iff lives).2 (Space.covers_trans outer inner)

/-- Types that convert to each other are equal. -/
theorem converts_antisymm {first second : ValueType} (ofFirst : first.WellFormed)
    (ofSecond : second.WellFormed) (above : first.Converts second) (below : second.Converts first) :
    first == second := by
  cases second with
  | integer => rw [converts_integer_iff.1 above]; exact BEq.rfl
  | boolean => rw [converts_boolean_iff.1 above]; exact BEq.rfl
  | symbol category => exact converts_symbol_iff.1 above
  | vector space =>
      cases first with
      | integer | boolean | symbol => cases below
      | vector other =>
          rw [vector_beq]
          exact Space.covers_antisymm ofFirst ofSecond ((converts_vector_iff rfl).1 below)
            ((converts_vector_iff rfl).1 above)

/-- A common type is that of two integers or of two booleans, or it has the vectors of a join. -/
theorem common?_eq_some_iff {first second common : ValueType} :
    first.common? second = some common ↔
      (first = .integer ∧ second = .integer ∧ common = .integer) ∨
      (first = .boolean ∧ second = .boolean ∧ common = .boolean) ∨
      ∃ left right space, first.space? = some left ∧ second.space? = some right ∧
        left.join? right = .ok space ∧ common = .vector space := by
  have joins (left right : Space) :
      (left.join? right).toOption.map ValueType.vector = some common ↔
        ∃ space, left.join? right = .ok space ∧ common = .vector space := by
    cases left.join? right with
    | error fault => simp [Except.toOption]
    | ok space => simp [Except.toOption, eq_comm]
  cases first <;> cases second <;> simp [common?, space?, joins, eq_comm]

/-- A least upper bound receives both types and converts to all that does, unless this is the type
of a symbol. -/
structure IsLeastUpperBound (first second common : ValueType) : Prop where
  ofFirst : first.Converts common
  ofSecond : second.Converts common
  least : ∀ bound : ValueType, bound.tag ≠ .symbol → first.Converts bound → second.Converts bound →
    common.Converts bound

section Common

variable {first second : ValueType} (ofFirst : first.WellFormed) (ofSecond : second.WellFormed)
include ofFirst ofSecond

theorem common?_isLeastUpperBound {common : ValueType} (found : first.common? second = some common) :
    IsLeastUpperBound first second common := by
  rcases common?_eq_some_iff.1 found with ⟨rfl, rfl, rfl⟩ | ⟨rfl, rfl, rfl⟩ |
    ⟨left, right, space, ofLeft, ofRight, joined, rfl⟩
  · exact ⟨rfl, rfl, fun bound _ above _ => above⟩
  · exact ⟨rfl, rfl, fun bound _ above _ => above⟩
  · obtain ⟨coversLeft, coversRight, least⟩ := Space.join?_covers
      (space?_wellFormed ofFirst ofLeft) (space?_wellFormed ofSecond ofRight) joined
    refine ⟨(converts_vector_iff ofLeft).2 coversLeft, (converts_vector_iff ofRight).2 coversRight, ?_⟩
    intro bound notSymbol above also
    cases bound with
    | integer => rw [converts_integer_iff.1 above] at ofLeft; cases ofLeft
    | boolean => rw [converts_boolean_iff.1 above] at ofLeft; cases ofLeft
    | symbol category => exact absurd rfl notSymbol
    | vector wide =>
        exact (converts_vector_iff rfl).2 (least wide ((converts_vector_iff ofLeft).1 above)
          ((converts_vector_iff ofRight).1 also))

/-- Two types that convert to one type have a common type. -/
theorem exists_common?_of_converts {bound : ValueType} (above : first.Converts bound)
    (also : second.Converts bound) : ∃ common, first.common? second = some common := by
  have joined {left right : Space} (ofLeft : first.space? = some left)
      (ofRight : second.space? = some right) (compatible : left.Compatible right) :
      ∃ common, first.common? second = some common := by
    obtain ⟨space, made⟩ := (Space.exists_join?_iff (space?_wellFormed ofFirst ofLeft)
      (space?_wellFormed ofSecond ofRight)).2 compatible
    exact ⟨_, common?_eq_some_iff.2 (.inr (.inr ⟨left, right, space, ofLeft, ofRight, made, rfl⟩))⟩
  cases bound with
  | integer =>
      rw [converts_integer_iff.1 above, converts_integer_iff.1 also]
      exact ⟨_, rfl⟩
  | boolean =>
      rw [converts_boolean_iff.1 above, converts_boolean_iff.1 also]
      exact ⟨_, rfl⟩
  | symbol category =>
      obtain ⟨one, rfl, same⟩ := eq_symbol_of_beq (converts_symbol_iff.1 above)
      obtain ⟨other, rfl, agrees⟩ := eq_symbol_of_beq (converts_symbol_iff.1 also)
      have equal : (other == one) = true := BEq.trans agrees (BEq.symm same)
      have above : (Space.unit one).covers (Space.unit other) = true := by
        apply Value.covers_unit
        simp [convertsTo, Space.find?, Space.unit, List.lookup_cons, equal]
      exact joined rfl rfl
        (Space.compatible_of_covers (Space.covers_self (Space.unit_wellFormed one)) above)
  | vector wide =>
      obtain ⟨left, ofLeft⟩ := exists_space_of_converts above
      obtain ⟨right, ofRight⟩ := exists_space_of_converts also
      exact joined ofLeft ofRight (Space.compatible_of_covers
        ((converts_vector_iff ofLeft).1 above) ((converts_vector_iff ofRight).1 also))

end Common

theorem common?_tag_ne {first second common : ValueType}
    (found : first.common? second = some common) : common.tag ≠ .symbol := by
  rcases common?_eq_some_iff.1 found with ⟨-, -, rfl⟩ | ⟨-, -, rfl⟩ | ⟨-, -, -, -, -, -, rfl⟩ <;>
    simp [tag]

theorem IsLeastUpperBound.symm {first second common : ValueType}
    (bound : IsLeastUpperBound first second common) : IsLeastUpperBound second first common :=
  ⟨bound.ofSecond, bound.ofFirst, fun other notSymbol above also =>
    bound.least other notSymbol also above⟩

/-- Equal pairs of types have equal least upper bounds. -/
theorem IsLeastUpperBound.beq {first second left right common other : ValueType}
    (bound : IsLeastUpperBound first second common) (also : IsLeastUpperBound left right other)
    (lefts : first == left) (rights : second == right) (formed : common.WellFormed)
    (alsoFormed : other.WellFormed) (notSymbol : common.tag ≠ .symbol)
    (alsoNot : other.tag ≠ .symbol) : common == other := by
  refine converts_antisymm formed alsoFormed ?_ ?_
  · exact bound.least other alsoNot ((converts_congr lefts other).2 also.ofFirst)
      ((converts_congr rights other).2 also.ofSecond)
  · exact also.least common notSymbol ((converts_congr lefts common).1 bound.ofFirst)
      ((converts_congr rights common).1 bound.ofSecond)

/-- Equal pairs of types have equal common types. -/
theorem common?_congr {left right otherLeft otherRight common other : ValueType}
    (ofLeft : left.WellFormed) (ofRight : right.WellFormed) (ofOtherLeft : otherLeft.WellFormed)
    (ofOtherRight : otherRight.WellFormed) (lefts : left == otherLeft)
    (rights : right == otherRight) (found : left.common? right = some common)
    (also : otherLeft.common? otherRight = some other) : common == other :=
  (common?_isLeastUpperBound ofLeft ofRight found).beq
    (common?_isLeastUpperBound ofOtherLeft ofOtherRight also) lefts rights
    (common?_wellFormed ofLeft ofRight found) (common?_wellFormed ofOtherLeft ofOtherRight also)
    (common?_tag_ne found) (common?_tag_ne also)

/-- The order of two types does not matter for their common type. -/
theorem common?_comm {first second : ValueType} (ofFirst : first.WellFormed)
    (ofSecond : second.WellFormed) :
    Option.Rel (fun one other : ValueType => one == other) (first.common? second)
      (second.common? first) := by
  cases found : first.common? second with
  | none =>
      cases reversed : second.common? first with
      | none => exact .none
      | some other =>
          have bound := common?_isLeastUpperBound ofSecond ofFirst reversed
          obtain ⟨common, impossible⟩ :=
            exists_common?_of_converts ofFirst ofSecond bound.ofSecond bound.ofFirst
          rw [found] at impossible
          cases impossible
  | some common =>
      have bound := common?_isLeastUpperBound ofFirst ofSecond found
      obtain ⟨other, reversed⟩ :=
        exists_common?_of_converts ofSecond ofFirst bound.ofSecond bound.ofFirst
      have also := common?_isLeastUpperBound ofSecond ofFirst reversed
      rw [reversed]
      exact .some (bound.beq also.symm BEq.rfl BEq.rfl (common?_wellFormed ofFirst ofSecond found)
        (common?_wellFormed ofSecond ofFirst reversed) (common?_tag_ne found)
        (common?_tag_ne reversed))

end ValueType

namespace Operator

/-- An operator supports every type that converts to one that it supports, symbols apart. -/
theorem supports_of_converts {operator : Operator} {source target : ValueType}
    (notSymbol : source.tag ≠ .symbol) (converts : source.Converts target)
    (supported : operator.supports target) : operator.supports source := by
  cases source with
  | integer =>
      cases target with
      | integer => exact supported
      | boolean | symbol | vector => cases converts
  | boolean =>
      cases target with
      | boolean => exact supported
      | integer | symbol | vector => cases converts
  | symbol category => exact absurd rfl notSymbol
  | vector space =>
      cases target with
      | integer | boolean | symbol => cases converts
      | vector wide =>
          obtain ⟨dimensions⟩ := space
          obtain ⟨others⟩ := wide
          have covered := (ValueType.converts_vector_iff rfl).1 converts
          simp only [supports, supportsAll_eq_all, Bool.and_eq_true, Bool.or_eq_true,
            List.all_eq_true] at supported ⊢
          refine ⟨supported.1, supported.2.imp_right fun inner dimension member => ?_⟩
          obtain ⟨other, inside, -, same⟩ := Space.exists_dimension_of_covers covered member
          rw [supports_congr operator same]
          exact inner other inside

end Operator

namespace Operation

theorem find?_eq_some_iff {operator : Operator} {left right : ValueType} {operation : Operation} :
    find? operator left right = some operation ↔
      left.common? right = some operation.operand ∧ operator.supports operation.operand = true ∧
        operation = ⟨operator, operation.operand, operator.resultType operation.operand⟩ := by
  refine ⟨find?_eq_some, ?_⟩
  rintro ⟨common, supported, settled⟩
  rw [find?, common]
  simp only [supported, if_true]
  rw [settled]
  rfl

/-- Two types that convert to a type with an operator have an operation. -/
theorem exists_find?_of_converts {operator : Operator} {first second bound : ValueType}
    (ofFirst : first.WellFormed) (ofSecond : second.WellFormed) (notSymbol : bound.tag ≠ .symbol)
    (above : first.Converts bound) (also : second.Converts bound)
    (supported : operator.supports bound = true) :
    ∃ operation, find? operator first second = some operation := by
  obtain ⟨common, found⟩ := ValueType.exists_common?_of_converts ofFirst ofSecond above also
  have least := ValueType.common?_isLeastUpperBound ofFirst ofSecond found
  have below := least.least bound notSymbol above also
  have supports := Operator.supports_of_converts (ValueType.common?_tag_ne found) below supported
  exact ⟨⟨operator, common, operator.resultType common⟩,
    find?_eq_some_iff.2 ⟨found, supports, rfl⟩⟩

/-- Operations are the same when they have one operator and equal types. -/
structure Same (first second : Operation) : Prop where
  operator : first.operator = second.operator
  operand : first.operand == second.operand
  result : first.result == second.result

/-- Operators that support the same types are settled alike for exchanged types. -/
theorem find?_exchanged {operator other : Operator}
    (supports : ∀ type, operator.supports type = other.supports type) {first second : ValueType}
    (ofFirst : first.WellFormed) (ofSecond : second.WellFormed) {operation : Operation}
    (found : find? operator first second = some operation) :
    ∃ reversed, find? other second first = some reversed ∧ operation.operand == reversed.operand := by
  obtain ⟨common, supported, -⟩ := find?_eq_some found
  have related := ValueType.common?_comm ofFirst ofSecond
  rw [common] at related
  cases reversed : second.common? first with
  | none => rw [reversed] at related; cases related
  | some operand =>
      rw [reversed] at related
      cases related with
      | some same =>
          refine ⟨⟨other, operand, other.resultType operand⟩, ?_, same⟩
          apply find?_eq_some_iff.2
          refine ⟨reversed, ?_, rfl⟩
          rw [← other.supports_congr same, ← supports]
          exact supported

theorem same_of_find? {operator : Operator} {left right otherLeft otherRight : ValueType}
    {first second : Operation} (ofFirst : find? operator left right = some first)
    (ofSecond : find? operator otherLeft otherRight = some second)
    (operands : first.operand == second.operand) : first.Same second := by
  obtain ⟨-, -, settledFirst⟩ := find?_eq_some ofFirst
  obtain ⟨-, -, settledSecond⟩ := find?_eq_some ofSecond
  refine ⟨by rw [settledFirst, settledSecond], operands, ?_⟩
  rw [settledFirst, settledSecond]
  simp only [Operator.resultType]
  split
  · exact operands
  · exact BEq.rfl

/-- The order of two types does not matter for the operation on them. -/
theorem find?_comm (operator : Operator) {first second : ValueType}
    (ofFirst : first.WellFormed) (ofSecond : second.WellFormed) :
    Option.Rel Same (find? operator first second) (find? operator second first) := by
  cases found : find? operator first second with
  | none =>
      cases reversed : find? operator second first with
      | none => exact .none
      | some other =>
          obtain ⟨operation, impossible, -⟩ := find?_exchanged (fun _ => rfl) ofSecond ofFirst reversed
          rw [found] at impossible
          cases impossible
  | some operation =>
      obtain ⟨other, reversed, same⟩ := find?_exchanged (fun _ => rfl) ofFirst ofSecond found
      rw [reversed]
      exact .some (same_of_find? found reversed same)

end Operation

namespace ValueType

/-- Conversion is a partial order up to marks. The common type of two types is their least upper
bound, two types without a common type have no upper bound at all, and neither the common type nor
an operation depends on the order of the operands. -/
theorem converts_leastUpperBound :
    (∀ type : ValueType, type.WellFormed → type.Converts type) ∧
    (∀ first second third : ValueType, first.Converts second → second.Converts third →
      first.Converts third) ∧
    (∀ first second : ValueType, first.WellFormed → second.WellFormed → first.Converts second →
      second.Converts first → first == second) ∧
    ∀ first second : ValueType, first.WellFormed → second.WellFormed →
      (∀ common, first.common? second = some common → IsLeastUpperBound first second common) ∧
      (first.common? second = none → ∀ bound, ¬(first.Converts bound ∧ second.Converts bound)) ∧
      Option.Rel (fun one other : ValueType => one == other) (first.common? second)
        (second.common? first) ∧
      ∀ operator, Option.Rel Operation.Same (Operation.find? operator first second)
        (Operation.find? operator second first) := by
  refine ⟨fun _ => converts_self, fun _ _ _ => converts_trans, fun _ _ => converts_antisymm,
    fun first second ofFirst ofSecond => ⟨fun common found => ?_, fun missing bound => ?_,
      common?_comm ofFirst ofSecond, fun operator => Operation.find?_comm operator ofFirst ofSecond⟩⟩
  · exact common?_isLeastUpperBound ofFirst ofSecond found
  · rintro ⟨above, also⟩
    obtain ⟨common, found⟩ := exists_common?_of_converts ofFirst ofSecond above also
    rw [missing] at found
    cases found

/-- Two equal symbols become vectors, and a vector of booleans has no type in common with its
symbol. -/
theorem converts_leastUpperBound_symbols :
    let symbol : ValueType := .symbol ⟨"a", .tick⟩
    let flags : ValueType := .vector ⟨[(⟨"a", .tick⟩, .boolean)]⟩
    symbol.common? (.symbol ⟨"a", .colon⟩) = some (.vector (.unit ⟨"a", .tick⟩)) ∧
      IsLeastUpperBound symbol (.symbol ⟨"a", .colon⟩) (.vector (.unit ⟨"a", .tick⟩)) ∧
      ∀ bound, ¬(symbol.Converts bound ∧ flags.Converts bound) := by
  intro symbol flags
  have formed : flags.WellFormed :=
    .vector _ (List.pairwise_singleton _ _) (by simp [WellFormed.boolean])
  have common : symbol.common? (.symbol ⟨"a", .colon⟩) = some (.vector (.unit ⟨"a", .tick⟩)) := rfl
  have missing : symbol.common? flags = none := rfl
  obtain ⟨-, -, -, bounds⟩ := converts_leastUpperBound
  refine ⟨common, (bounds _ _ (.symbol _) (.symbol _)).1 _ common, ?_⟩
  exact (bounds _ _ (.symbol _) formed).2.1 missing

end ValueType

end DiceOdds
