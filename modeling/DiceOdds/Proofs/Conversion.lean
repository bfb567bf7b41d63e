import DiceOdds.Conversion
import DiceOdds.Proofs.WellFormed

/-
This file shows that implicit conversions succeed whenever the types allow them, and that they
respect equality up to marks. A value that converts is the same value read in another type.
-/

namespace DiceOdds

namespace SparseVector

/-- A component is what the reading shows in its dimension. -/
theorem component?_eq_lookup (vector : SparseVector) (symbol : Symbol) :
    vector.component? symbol = vector.reading.lookup symbol := by
  obtain ⟨⟨dimensions⟩, components⟩ := vector
  simp only [component?, reading, Space.find?]
  induction dimensions with
  | nil => rfl
  | cons dimension rest known =>
      rw [List.map_cons, List.lookup_cons, List.lookup_cons, ← known]
      cases same : symbol == dimension.1 with
      | false => rfl
      | true => rw [Symbol.lookup_congr same]; rfl

/-- Fillings with equal leaves are equal in every dimension. -/
theorem fills_congr {first second : List (Symbol × ValueType)} {left right : List (Symbol × Value)}
    (agree : List.Forall₂ (fun one other => one.1 == other.1 ∧ one.2 == other.2) first second)
    (ofLeft : List.Forall₂ Fills first left) (ofRight : List.Forall₂ Fills second right)
    (same : (left.flatMap fun component => component.2.leaves) =
      right.flatMap fun component => component.2.leaves) :
    List.Forall₂ (fun one other => one.1 == other.1 ∧ one.2 == other.2) left right := by
  induction agree generalizing left right with
  | nil =>
      cases ofLeft
      cases ofRight
      exact .nil
  | cons agrees rest known =>
      rcases ofLeft with _ | ⟨⟨leftName, leftFormed, leftType⟩, leftRest⟩
      rcases ofRight with _ | ⟨⟨rightName, rightFormed, rightType⟩, rightRest⟩
      have types := BEq.trans (BEq.trans (BEq.symm leftType) agrees.2) rightType
      rw [List.flatMap_cons, List.flatMap_cons] at same
      obtain ⟨head, tail⟩ := List.append_inj same (by
        rw [leftFormed.leaves_length, rightFormed.leaves_length, ValueType.leafCount_congr types])
      refine .cons ⟨?_, Value.beq_iff.2 ⟨types, head⟩⟩ (known leftRest rightRest tail)
      rw [leftName, rightName]
      exact agrees.1

/-- Equal vectors have equal readings. -/
theorem reading_congr {first second : SparseVector} (ofFirst : (Value.vector first).WellFormed)
    (ofSecond : (Value.vector second).WellFormed)
    (same : Value.vector first == Value.vector second) :
    List.Forall₂ (fun one other => one.1 == other.1 ∧ one.2 == other.2)
      first.reading second.reading := by
  obtain ⟨types, leaves⟩ := Value.beq_iff.1 same
  rw [Value.leaves_vector, Value.leaves_vector] at leaves
  exact fills_congr (Space.beq_iff.1 (ValueType.vector_beq ▸ types)) (reading_fills ofFirst)
    (reading_fills ofSecond) leaves

/-- Lists of equal entries answer every look-up equally. -/
theorem lookup_forall₂ {A : Type} [BEq A] {left right : List (Symbol × A)}
    (agree : List.Forall₂ (fun one other => one.1 == other.1 ∧ one.2 == other.2) left right)
    (symbol : Symbol) :
    Option.Rel (fun one other : A => one == other) (left.lookup symbol) (right.lookup symbol) := by
  induction agree with
  | nil => exact .none
  | @cons one other left right agrees rest known =>
      rw [List.lookup_cons, List.lookup_cons,
        show (symbol == one.1) = (symbol == other.1) from BEq.congr_right agrees.1]
      cases symbol == other.1 with
      | true => exact .some agrees.2
      | false => exact known

end SparseVector

namespace ValueType

theorem symbol_beq {first second : Symbol} :
    (ValueType.symbol first == .symbol second) = (first == second) := by
  rw [Bool.eq_iff_iff, beq_iff_compare, Symbol.beq_iff]
  exact Symbol.compare_eq_iff

end ValueType

namespace Space

theorem find?_congr {first second : Symbol} (same : first == second) (space : Space) :
    space.find? first = space.find? second :=
  Symbol.lookup_congr same space.dimensions

/-- Whether a space is covered depends on it up to marks only. -/
theorem covers_congr {first second : Space} (same : first == second) (wide : Space) :
    wide.covers first = wide.covers second := by
  obtain ⟨dimensions⟩ := first
  obtain ⟨others⟩ := second
  have agree := Space.beq_iff.1 same
  change List.Forall₂ _ dimensions others at agree
  simp only [covers]
  clear same
  induction agree with
  | nil => rfl
  | @cons one other firsts seconds agrees rest known =>
      rw [List.all_cons, List.all_cons, known, find?_congr agrees.1]
      congr 1
      cases wide.find? other.1 with
      | none => rfl
      | some type => exact BEq.congr_right agrees.2

/-- A new dimension of a well-formed type keeps a space well formed. -/
theorem extend?_wellFormed {space next : Space} {dimension : Symbol} {type : ValueType}
    (formed : space.WellFormed) (ofType : type.WellFormed)
    (extended : space.extend? dimension type = .ok next) : next.WellFormed := by
  simp only [extend?] at extended
  split at extended
  · cases extended
    apply ValueType.WellFormed.vector _ (Symbol.ascending_put formed.ascending)
    intro entry member
    rcases Symbol.mem_put member with old | ⟨same, -⟩
    · exact formed.inner entry old
    · exact same ▸ ofType
  · split at extended
    · cases extended
      exact formed
    · cases extended

/-- Adding dimensions adds the first of them and then the others. -/
theorem extendAll?_cons_eq_ok {space wide : Space} {dimension : Symbol × ValueType}
    {rest : List (Symbol × ValueType)} (extended : space.extendAll? (dimension :: rest) = .ok wide) :
    ∃ next, space.extend? dimension.1 dimension.2 = .ok next ∧ next.extendAll? rest = .ok wide :=
  Except.bind_eq_ok extended

theorem extendAll?_wellFormed {dimensions : List (Symbol × ValueType)} {space wide : Space}
    (formed : space.WellFormed) (inner : ∀ dimension ∈ dimensions, dimension.2.WellFormed)
    (extended : space.extendAll? dimensions = .ok wide) : wide.WellFormed := by
  induction dimensions generalizing space with
  | nil =>
      cases extended
      exact formed
  | cons dimension rest known =>
      obtain ⟨ofType, later⟩ := List.forall_mem_cons.1 inner
      obtain ⟨next, step, others⟩ := extendAll?_cons_eq_ok extended
      exact known (extend?_wellFormed formed ofType step) later others

/-- Dimensions of different names make a space that has just these dimensions. -/
theorem extendAll?_of_distinct {dimensions : List (Symbol × ValueType)} {space : Space}
    (ascending : Symbol.Ascending space.dimensions)
    (distinct : Symbol.Distinct (space.dimensions ++ dimensions)) :
    ∃ wide, space.extendAll? dimensions = .ok wide ∧ Symbol.Ascending wide.dimensions ∧
      wide.dimensions.Perm (space.dimensions ++ dimensions) := by
  induction dimensions generalizing space with
  | nil => exact ⟨space, rfl, ascending, by simp⟩
  | cons dimension rest known =>
      have moved := distinct.perm List.perm_middle
      have absent : ∀ entry ∈ space.dimensions, (dimension.1 == entry.1) = false :=
        fun entry member => (List.pairwise_cons.1 moved).1 entry (List.mem_append_left _ member)
      have added : (dimension.1.put dimension.2 space.dimensions).Perm
          (dimension :: space.dimensions) := Symbol.put_perm absent
      have grown : Symbol.Ascending (dimension.1.put dimension.2 space.dimensions) :=
        Symbol.ascending_put ascending
      obtain ⟨wide, made, ordered, same⟩ := @known ⟨dimension.1.put dimension.2 space.dimensions⟩
        grown (moved.perm (added.symm.append_right rest))
      have step : space.extend? dimension.1 dimension.2 =
          .ok ⟨dimension.1.put dimension.2 space.dimensions⟩ := by
        rw [extend?, find?, Symbol.lookup_of_absent absent]
      refine ⟨wide, ?_, ordered, same.trans ?_⟩
      · rw [extendAll?, List.foldlM_cons, step]
        exact made
      · exact (added.append_right rest).trans List.perm_middle.symm

theorem empty_wellFormed : empty.WellFormed :=
  .vector [] List.Pairwise.nil (by simp)

theorem unit_wellFormed (symbol : Symbol) : (unit symbol).WellFormed :=
  .vector _ (List.pairwise_singleton _ _) (by simp [ValueType.WellFormed.integer])

end Space

namespace ValueType

/-- Whether a type converts depends on the type up to marks only. -/
theorem convertsTo_congr {first second : ValueType} (same : first == second) (target : ValueType) :
    first.convertsTo target = second.convertsTo target := by
  rcases first with _ | _ | category | space
  · rw [eq_integer_of_beq (BEq.symm same)]
  · rw [eq_boolean_of_beq (BEq.symm same)]
  · obtain ⟨other, rfl, agrees⟩ := eq_symbol_of_beq (BEq.symm same)
    cases target with
    | symbol wanted => exact BEq.congr_left (BEq.symm agrees)
    | vector wide => simp only [convertsTo, Space.find?_congr agrees]
    | integer => rfl
    | boolean => rfl
  · obtain ⟨other, rfl, agrees⟩ := eq_vector_of_beq (BEq.symm same)
    cases target with
    | vector wide => exact (Space.covers_congr agrees wide).symm
    | integer => rfl
    | boolean => rfl
    | symbol wanted => rfl

theorem space?_wellFormed {type : ValueType} {space : Space} (formed : type.WellFormed)
    (found : type.space? = some space) : space.WellFormed := by
  cases formed with
  | integer => cases found
  | boolean => cases found
  | symbol category =>
      cases found
      exact Space.unit_wellFormed category
  | vector dimensions ascending inner =>
      cases found
      exact .vector dimensions ascending inner

/-- The common type of well-formed types is well formed. -/
theorem common?_wellFormed {first second type : ValueType} (ofFirst : first.WellFormed)
    (ofSecond : second.WellFormed) (found : first.common? second = some type) :
    type.WellFormed := by
  unfold common? at found
  split at found
  · cases found
    exact .integer
  · cases found
    exact .boolean
  · split at found
    · next left right leftSpace rightSpace =>
        cases joined : left.join? right with
        | error fault => rw [joined] at found; cases found
        | ok space =>
            rw [joined] at found
            cases found
            exact Space.extendAll?_wellFormed (space?_wellFormed ofFirst leftSpace)
              (space?_wellFormed ofSecond rightSpace).inner joined
    · cases found

end ValueType

namespace SparseVector

/-- A dimension that the space lacks has no stored component. -/
theorem lookup_of_find?_none {vector : SparseVector} (formed : (Value.vector vector).WellFormed)
    {symbol : Symbol} (absent : vector.space.find? symbol = none) :
    vector.components.lookup symbol = none := by
  rcases formed with _ | _ | _ | ⟨space, components, ofSpace, ascending, stored, typed, nonzero⟩
  apply Option.eq_none_iff_forall_not_mem.2
  intro value found
  obtain ⟨key, member, same⟩ := Symbol.mem_of_lookup found
  obtain ⟨type, present, -⟩ := typed _ member
  rw [← Space.find?_congr same, absent] at present
  cases present

/-- In a wider space a vector keeps its components, and all other dimensions are zero. -/
theorem leaves_embed {vector : SparseVector} {target : Space}
    (formed : (Value.vector vector).WellFormed) (ofTarget : target.WellFormed)
    (covered : target.covers vector.space = true) :
    (Value.vector { vector with space := target }).leaves =
      target.dimensions.flatMap fun dimension =>
        ((vector.component? dimension.1).map Value.leaves).getD
          (List.replicate dimension.2.leafCount 0) := by
  simp only [Value.leaves, Value.componentLeaves_eq_map, Symbol.lookup_map_snd, component?]
  apply List.flatMap_congr
  intro dimension member
  cases found : vector.space.find? dimension.1 with
  | none => rw [lookup_of_find?_none formed found]; rfl
  | some type =>
      obtain ⟨other, reached, agrees⟩ := find?_of_covers covered found
      rw [Space.find?, Symbol.lookup_of_mem ofTarget.ascending member BEq.rfl] at reached
      obtain rfl := Option.some.inj reached
      cases stored : vector.components.lookup dimension.1 with
      | none => simp [Value.leaves_zero, ValueType.leafCount_congr agrees]
      | some value => rfl

theorem embed?_of_covers {vector : SparseVector} {target : Space}
    (covered : target.covers vector.space = true) :
    vector.embed? target = .ok { vector with space := target } := by
  rw [embed?, if_pos covered]

/-- Equal vectors stay equal in a wider space. -/
theorem embed_congr {first second : SparseVector} {target : Space} (ofTarget : target.WellFormed)
    (ofFirst : (Value.vector first).WellFormed) (ofSecond : (Value.vector second).WellFormed)
    (same : Value.vector first == Value.vector second)
    (coversFirst : target.covers first.space = true)
    (coversSecond : target.covers second.space = true) :
    Value.vector { first with space := target } == Value.vector { second with space := target } := by
  refine Value.beq_iff.2 ⟨BEq.rfl, ?_⟩
  rw [leaves_embed ofFirst ofTarget coversFirst, leaves_embed ofSecond ofTarget coversSecond]
  apply List.flatMap_congr
  intro dimension member
  rw [component?_eq_lookup, component?_eq_lookup]
  have related := lookup_forall₂ (reading_congr ofFirst ofSecond same) dimension.1
  generalize first.reading.lookup dimension.1 = left at related ⊢
  generalize second.reading.lookup dimension.1 = right at related ⊢
  cases related with
  | none => rfl
  | some agrees => rw [Option.map_some, Option.map_some, (Value.beq_iff.1 agrees).2]

end SparseVector

namespace Value

/-- A symbol converts to every space in which its dimension holds integers. -/
theorem covers_unit {category : Symbol} {space : Space}
    (converts : (ValueType.symbol category).convertsTo (.vector space) = true) :
    space.covers (Space.unit category) = true := by
  simp only [ValueType.convertsTo] at converts
  split at converts
  · next found => simp [Space.covers, Space.unit, found]
  · cases converts

/-- A value is read in another type when a symbol becomes its unit vector and a vector changes its
space. -/
def readAs (value : Value) (target : ValueType) : Value :=
  match value, target with
  | .symbol category, .vector space => .vector { SparseVector.unit category with space := space }
  | .vector tally, .vector space => .vector { tally with space := space }
  | _, _ => value

/-- The type alone decides whether a value converts. -/
theorem convert?_eq (value : Value) (target : ValueType) :
    value.convert? target =
      if value.type.convertsTo target then .ok (value.readAs target)
      else .error (.noConversion value.type target) := by
  cases value with
  | integer | boolean => cases target <;> rfl
  | symbol category =>
      cases target with
      | integer | boolean | symbol => rfl
      | vector space =>
          rw [convert?, type]
          split
          · next converts =>
              have embedded : (SparseVector.unit category).embed? space = _ :=
                SparseVector.embed?_of_covers (covers_unit converts)
              rw [embedded]
              rfl
          · rfl
  | vector tally =>
      cases target with
      | integer | boolean | symbol => rfl
      | vector space =>
          rw [convert?, type, SparseVector.embed?, ValueType.convertsTo]
          split <;> rfl

theorem convert?_eq_ok_iff {value image : Value} {target : ValueType} :
    value.convert? target = .ok image ↔
      value.type.convertsTo target = true ∧ value.readAs target = image := by
  rw [convert?_eq]
  split
  · next converts => simp [converts]
  · next refused => simp [refused]

/-- Only vectors are read in another way than they are. -/
theorem readAs_of_tag_ne {target : ValueType} (notVector : target.tag ≠ .vector) (value : Value) :
    value.readAs target = value := by
  cases target with
  | integer | boolean | symbol => cases value <;> rfl
  | vector space => exact absurd rfl notVector

/-- A value that converts has the type that it is read in. -/
theorem readAs_type {value : Value} {target : ValueType}
    (converts : value.type.convertsTo target = true) : (value.readAs target).type == target := by
  cases value with
  | integer =>
      cases target with
      | integer => exact BEq.rfl
      | boolean | symbol | vector => cases converts
  | boolean =>
      cases target with
      | boolean => exact BEq.rfl
      | integer | symbol | vector => cases converts
  | symbol category =>
      cases target with
      | symbol wanted =>
          change ValueType.symbol category == .symbol wanted
          rw [ValueType.symbol_beq]
          exact converts
      | vector space => exact BEq.rfl
      | integer | boolean => cases converts
  | vector tally =>
      cases target with
      | vector space => exact BEq.rfl
      | integer | boolean | symbol => cases converts

theorem readAs_wellFormed {value : Value} {target : ValueType} (formed : value.WellFormed)
    (ofTarget : target.WellFormed) (converts : value.type.convertsTo target = true) :
    (value.readAs target).WellFormed := by
  cases target with
  | integer | boolean | symbol =>
      rw [readAs_of_tag_ne (by simp [ValueType.tag])]
      exact formed
  | vector space =>
      cases value with
      | integer | boolean => cases converts
      | symbol category =>
          exact (SparseVector.embed?_wellFormed (SparseVector.unit_wellFormed category) ofTarget
            (SparseVector.embed?_of_covers (covers_unit converts))).1
      | vector tally =>
          exact (SparseVector.embed?_wellFormed formed ofTarget
            (SparseVector.embed?_of_covers converts)).1

/-- A value whose type converts has a well-formed image of the target type. -/
theorem convert?_ok {value : Value} {target : ValueType} (formed : value.WellFormed)
    (ofTarget : target.WellFormed) (converts : value.type.convertsTo target = true) :
    ∃ image, value.convert? target = .ok image ∧ image.WellFormed ∧ image.type == target :=
  ⟨_, convert?_eq_ok_iff.2 ⟨converts, rfl⟩, readAs_wellFormed formed ofTarget converts,
    readAs_type converts⟩

/-- Unit vectors of one symbol are equal. -/
theorem unit_congr {first second : Symbol} (same : first == second) :
    Value.vector (SparseVector.unit first) == Value.vector (SparseVector.unit second) := by
  refine beq_iff.2 ⟨?_, ?_⟩
  · rw [type, type, ValueType.vector_beq]
    exact Space.beq_iff.2 (.cons ⟨same, BEq.rfl⟩ .nil)
  · simp [leaves, componentLeaves, SparseVector.unit, Space.unit]

/-- Equal values are equal in every type that they are read in. -/
theorem readAs_congr {first second : Value} {target : ValueType} (ofTarget : target.WellFormed)
    (ofFirst : first.WellFormed) (ofSecond : second.WellFormed) (same : first == second)
    (converts : first.type.convertsTo target = true) :
    first.readAs target == second.readAs target := by
  obtain ⟨types, -⟩ := beq_iff.1 same
  have alsoConverts := converts
  rw [ValueType.convertsTo_congr types] at alsoConverts
  cases target with
  | integer | boolean | symbol =>
      rw [readAs_of_tag_ne (by simp [ValueType.tag]), readAs_of_tag_ne (by simp [ValueType.tag])]
      exact same
  | vector space =>
      cases first with
      | integer | boolean => cases converts
      | symbol category =>
          obtain ⟨other, rfl, agrees⟩ := eq_symbol_of_type (BEq.symm types)
          exact SparseVector.embed_congr ofTarget (SparseVector.unit_wellFormed category)
            (SparseVector.unit_wellFormed other) (unit_congr (BEq.symm agrees))
            (covers_unit converts) (covers_unit alsoConverts)
      | vector tally =>
          obtain ⟨other, rfl, agrees⟩ := eq_vector_of_type (BEq.symm types)
          exact SparseVector.embed_congr ofTarget ofFirst ofSecond same converts alsoConverts

/-- Equal values have equal images. -/
theorem convert?_congr {first second image : Value} {target : ValueType}
    (ofTarget : target.WellFormed) (ofFirst : first.WellFormed) (ofSecond : second.WellFormed)
    (same : first == second) (converts : first.type.convertsTo target = true)
    (converted : first.convert? target = .ok image) :
    ∃ other, second.convert? target = .ok other ∧ image == other := by
  obtain ⟨-, rfl⟩ := convert?_eq_ok_iff.1 converted
  have alsoConverts := converts
  rw [ValueType.convertsTo_congr (beq_iff.1 same).1] at alsoConverts
  exact ⟨_, convert?_eq_ok_iff.2 ⟨alsoConverts, rfl⟩,
    readAs_congr ofTarget ofFirst ofSecond same converts⟩

end Value

end DiceOdds
