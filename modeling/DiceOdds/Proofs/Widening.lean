import DiceOdds.Proofs.Exactness
import DiceOdds.Proofs.ValueConversion

/-
This file follows vectors into wider spaces. The paths of a space are a part of the paths of every
space that covers it, and a vector has zeros at all others, so that its order, its arithmetic and its
equality stay what they were.
-/

namespace DiceOdds

/-- A part of a list without repetitions is what a filter leaves of the list. -/
theorem filter_mem_of_sublist {A : Type} [BEq A] [LawfulBEq A] {part whole : List A}
    (sublist : part.Sublist whole) (distinct : whole.Nodup) :
    whole.filter (fun value => decide (value ∈ part)) = part := by
  have inside := sublist.filter fun value => decide (value ∈ part)
  rw [List.filter_eq_self.2 fun value member => decide_eq_true member] at inside
  refine (inside.eq_of_length (List.Perm.length_eq ?_)).symm
  refine (List.perm_ext_iff_of_nodup (distinct.sublist sublist) (distinct.filter _)).2 fun value => ?_
  rw [List.mem_filter, decide_eq_true_iff]
  exact ⟨fun member => ⟨sublist.subset member, member⟩, And.right⟩

/-- Positions with equal entries do not count in a comparison of two lists. -/
theorem compare_map_filter {A : Type} {first second : A → Int} (keep : A → Bool) {list : List A}
    (same : ∀ value ∈ list, keep value = false → first value = second value) :
    compare ((list.filter keep).map first) ((list.filter keep).map second) =
      compare (list.map first) (list.map second) := by
  induction list with
  | nil => rfl
  | cons value rest known =>
      obtain ⟨head, tail⟩ := List.forall_mem_cons.1 same
      cases chosen : keep value with
      | true =>
          rw [List.filter_cons_of_pos chosen]
          simp only [List.map_cons, List.compare_cons_cons, known tail]
      | false =>
          rw [List.filter_cons_of_neg (by simp [chosen]), known tail, List.map_cons, List.map_cons,
            List.compare_cons_cons, head chosen, Std.ReflOrd.compare_self, Ordering.eq_then]

/-- Steps that succeed do not count for the fault of a run. -/
theorem Except.agree_mapM_filter {E A B : Type} {step : A → Except E B} (keep : A → Bool)
    {list : List A} (succeeds : ∀ value ∈ list, keep value = false → ∃ image, step value = .ok image) :
    Agree Eq (fun _ _ => True) ((list.filter keep).mapM step) (list.mapM step) := by
  induction list with
  | nil => exact .ok trivial
  | cons value rest known =>
      obtain ⟨head, tail⟩ := List.forall_mem_cons.1 succeeds
      rw [List.mapM_cons]
      cases chosen : keep value with
      | true =>
          rw [List.filter_cons_of_pos chosen, List.mapM_cons]
          refine Agree.bind (Agree.refl (fun _ => rfl) (step value)) fun _ image same => ?_
          exact (known tail).bind fun _ _ _ => .ok trivial
      | false =>
          rw [List.filter_cons_of_neg (by simp [chosen])]
          obtain ⟨image, done⟩ := head chosen
          rw [done]
          have agree := known tail
          generalize (rest.filter keep).mapM step = part at agree ⊢
          generalize rest.mapM step = whole at agree ⊢
          cases agree with
          | error same => exact .error same
          | ok => exact .ok trivial

namespace ValueType

/-- No path of a type is listed twice. -/
theorem paths_nodup {type : ValueType} (formed : type.WellFormed) : type.paths.Nodup := by
  induction formed with
  | integer | boolean => exact List.nodup_singleton _
  | symbol category => exact List.nodup_nil
  | vector dimensions ascending inner known =>
      rw [paths, dimensionPaths_eq_flatMap, List.nodup_flatMap]
      refine ⟨fun dimension member => (known dimension member).map List.cons_injective, ?_⟩
      -- Paths through two dimensions differ in their first name.
      refine ascending.imp fun {first second} less path left right => ?_
      obtain ⟨rest, -, rfl⟩ := List.mem_map.1 left
      obtain ⟨other, -, same⟩ := List.mem_map.1 right
      have names := Symbol.compare_eq_iff.2 (List.cons.inj same).1.symm
      rw [less] at names
      cases names

/-- The paths of a space are a part of those of every space that covers it. -/
theorem paths_of_covers {narrow wide : Space} (ofNarrow : narrow.WellFormed)
    (ofWide : wide.WellFormed) (covered : wide.covers narrow = true) :
    (vector wide).paths.filter (fun path => decide (path ∈ (vector narrow).paths)) =
      (vector narrow).paths := by
  obtain ⟨dimensions⟩ := wide
  refine filter_mem_of_sublist ?_ (paths_nodup ofWide)
  obtain ⟨part, sublist, same⟩ := exists_sublist_of_increasing (compareOn Prod.fst)
    (fun one other agrees => Symbol.compare_eq_iff.2 (Symbol.beq_iff.1 agrees.1)) ofNarrow.ascending
    ofWide.ascending fun dimension => Space.exists_dimension_of_covers covered
  have through : (vector narrow).paths = (vector ⟨part⟩).paths :=
    paths_congr (vector_beq.trans (Space.beq_iff.2 same))
  rw [through]
  simp only [paths, dimensionPaths_eq_flatMap]
  exact sublist.flatMap _

end ValueType

namespace Value

theorem compare_of_types {first second : Value} (types : first.type == second.type) :
    compare first second = compare first.leaves second.leaves := by
  change (compare first.type second.type).then (compare first.leaves second.leaves) = _
  rw [ValueType.beq_iff_compare.1 types, Ordering.eq_then]

/-- A value that is read in another type has its own leaves at the paths of that type. -/
theorem WellFormed.leaves_readAs {value : Value} {target : ValueType} (formed : value.WellFormed)
    (ofTarget : target.WellFormed) (converts : value.type.convertsTo target = true) :
    (value.readAs target).leaves = target.paths.map value.leafAt := by
  rw [(readAs_wellFormed formed ofTarget converts).leaves_eq_map,
    ValueType.paths_congr (readAs_type converts)]
  exact List.map_congr_left fun path _ => leafAt_readAs value target path

/-- A vector is well formed in every space that covers its own. -/
theorem WellFormed.widened {value : Value} {space wide : Space} (formed : value.WellFormed)
    (typed : value.type == .vector space) (ofWide : wide.WellFormed)
    (covered : wide.covers space = true) :
    (value.readAs (.vector wide)).WellFormed ∧
      (value.readAs (.vector wide)).type == .vector wide := by
  have converts : value.type.convertsTo (.vector wide) = true := by
    rw [ValueType.convertsTo_congr typed]
    exact covered
  exact ⟨readAs_wellFormed formed ofWide converts, readAs_type converts⟩

/-- Values of one type keep their order in every type that they are read in. -/
theorem compare_readAs {first second : Value} {target : ValueType} (ofTarget : target.WellFormed)
    (ofFirst : first.WellFormed) (ofSecond : second.WellFormed) (types : first.type == second.type)
    (converts : first.type.convertsTo target = true) :
    compare (first.readAs target) (second.readAs target) = compare first second := by
  have alsoConverts := converts
  rw [ValueType.convertsTo_congr types] at alsoConverts
  cases target with
  | integer | boolean | symbol =>
      rw [readAs_of_tag_ne (by simp [ValueType.tag]), readAs_of_tag_ne (by simp [ValueType.tag])]
  | vector wide =>
      cases first with
      | integer | boolean => cases converts
      | symbol category =>
          obtain ⟨other, rfl, -⟩ := eq_symbol_of_type (BEq.symm types)
          have same : Value.symbol category == .symbol other := beq_iff.2 ⟨types, rfl⟩
          rw [beq_iff_compare.1 same]
          exact beq_iff_compare.1 (readAs_congr ofTarget ofFirst ofSecond same converts)
      | vector vector =>
          rw [compare_of_types types,
            compare_of_types (BEq.trans (readAs_type converts) (BEq.symm (readAs_type alsoConverts))),
            ofFirst.leaves_readAs ofTarget converts, ofSecond.leaves_readAs ofTarget alsoConverts,
            ofFirst.leaves_eq_map, ofSecond.leaves_eq_map, ← ValueType.paths_congr types, type,
            ← ValueType.paths_of_covers ofFirst.type_wellFormed ofTarget converts]
          -- Both vectors have zeros at the paths that only the wide space has.
          refine (compare_map_filter _ fun path _ absent => ?_).symm
          have outside := of_decide_eq_false absent
          rw [ofFirst.leafAt_outside BEq.rfl (by simp [type, ValueType.tag]) outside,
            ofSecond.leafAt_outside (BEq.symm types) (by simp [type, ValueType.tag]) outside]

/-- Values of one type are equal when they are equal in another type. -/
theorem beq_readAs {first second : Value} {target : ValueType} (ofTarget : target.WellFormed)
    (ofFirst : first.WellFormed) (ofSecond : second.WellFormed) (types : first.type == second.type)
    (converts : first.type.convertsTo target = true) :
    (first.readAs target == second.readAs target) = (first == second) := by
  rw [Bool.eq_iff_iff, beq_iff_compare, beq_iff_compare,
    compare_readAs ofTarget ofFirst ofSecond types converts]

end Value

namespace Operator

/-- What a space supports, the spaces below it support too. -/
theorem supports_of_covers {operator : Operator} {space wide : Space}
    (covered : wide.covers space = true) (supported : operator.supports (.vector wide)) :
    operator.supports (.vector space) :=
  supports_of_converts (by simp [ValueType.tag]) ((ValueType.converts_vector_iff rfl).2 covered)
    supported

section Wide

variable {operator : Operator} (zeros : operator.integerResult 0 0 = .ok 0) {space wide : Space}
  (ofWide : wide.WellFormed) (covered : wide.covers space = true) {left right : Value}
  (ofLeft : left.WellFormed) (ofRight : right.WellFormed) (typedLeft : left.type == .vector space)
  (typedRight : right.type == .vector space)
include zeros ofWide covered ofLeft ofRight typedLeft typedRight

/-- The paths that only the wide space has do not count for the first fault of the leaves. -/
theorem agree_paths_of_covers :
    Agree Eq (fun _ _ => True)
      ((ValueType.vector space).paths.mapM fun path =>
        operator.integerResult (left.leafAt path) (right.leafAt path))
      ((ValueType.vector wide).paths.mapM fun path =>
        operator.integerResult (left.leafAt path) (right.leafAt path)) := by
  rw [← ValueType.paths_of_covers (ofLeft.type_wellFormed.congr typedLeft) ofWide covered]
  refine Except.agree_mapM_filter _ fun path _ absent => ⟨0, ?_⟩
  have outside := of_decide_eq_false absent
  rw [ofLeft.leafAt_outside typedLeft (by simp [ValueType.tag]) outside,
    ofRight.leafAt_outside typedRight (by simp [ValueType.tag]) outside, zeros]

/-- Arithmetic in a wide space has the faults and results that it has in a space below it. -/
theorem compute_readAs (arithmetic : operator.isArithmetic)
    (supported : operator.supports (.vector wide)) :
    Agree Eq
      (fun result wideResult => result.type == .vector space ∧
        result.readAs (.vector wide) == wideResult)
      (operator.compute left right)
      (operator.compute (left.readAs (.vector wide)) (right.readAs (.vector wide))) := by
  have below := supports_of_covers covered supported
  obtain ⟨ofWideLeft, typedWideLeft⟩ := ofLeft.widened typedLeft ofWide covered
  obtain ⟨ofWideRight, typedWideRight⟩ := ofRight.widened typedRight ofWide covered
  have narrowRun := compute_agree_paths arithmetic below ofLeft ofRight typedLeft typedRight
  have paths := agree_paths_of_covers zeros ofWide covered ofLeft ofRight typedLeft typedRight
  have wideRun := compute_agree_paths arithmetic supported ofWideLeft ofWideRight typedWideLeft
    typedWideRight
  simp only [Value.leafAt_readAs] at wideRun
  cases computed : operator.compute left right with
  | error fault =>
      have failed := paths.eq_error_iff.1 (narrowRun.eq_error_iff.1 computed)
      rw [wideRun.eq_error_iff.2 failed]
      exact .error rfl
  | ok result =>
      obtain ⟨wideResult, also⟩ :=
        wideRun.exists_iff.2 (paths.exists_iff.1 (narrowRun.exists_iff.1 ⟨result, computed⟩))
      obtain ⟨ofResult, typed, -⟩ :=
        compute_ok arithmetic below ofLeft ofRight typedLeft typedRight computed
      obtain ⟨ofWideResult, wideTyped, -⟩ := compute_ok arithmetic supported ofWideLeft ofWideRight
        typedWideLeft typedWideRight also
      obtain ⟨formed, retyped⟩ := ofResult.widened typed ofWide covered
      rw [also]
      refine .ok ⟨typed, Value.beq_of_leafAt formed ofWideResult
        (BEq.trans retyped (BEq.symm wideTyped)) fun path _ => ?_⟩
      have leaf := leafAt_compute arithmetic zeros below ofLeft ofRight typedLeft typedRight computed
        path
      have wideLeaf := leafAt_compute arithmetic zeros supported ofWideLeft ofWideRight typedWideLeft
        typedWideRight also path
      rw [Value.leafAt_readAs, Value.leafAt_readAs, leaf] at wideLeaf
      rw [Value.leafAt_readAs]
      exact Except.ok.inj wideLeaf

end Wide

theorem compute_equal {left right : Value} (types : left.type == right.type) :
    equal.compute left right = .ok (.boolean (left == right)) :=
  if_pos types

end Operator

namespace Operation

/-- With an operation on a space comes one on every space below it. -/
theorem exists_find?_of_covers {operator : Operator} {space wide : Space} {operation : Operation}
    (ofSpace : space.WellFormed) (ofWide : wide.WellFormed) (covered : wide.covers space = true)
    (found : find? operator (.vector wide) (.vector wide) = some operation) :
    ∃ below, find? operator (.vector space) (.vector space) = some below :=
  exists_find?_of_supports ofSpace
    (Operator.supports_of_covers covered (supports_of_find? ofWide (by simp [ValueType.tag]) found))

end Operation

namespace SparseVector

/-- Widening commutes with arithmetic and with equality. A sum or difference in the wide space is the
widened sum or difference, or it fails with the same fault, and two vectors are equal in the wide
space when they are equal. -/
theorem embed?_commutes {narrow wide : Space} {left right : SparseVector} (ofWide : wide.WellFormed)
    (covered : wide.covers narrow = true) (ofLeft : (Value.vector left).WellFormed)
    (ofRight : (Value.vector right).WellFormed) (typedLeft : left.space == narrow)
    (typedRight : right.space == narrow) :
    ∃ wideLeft wideRight, left.embed? wide = .ok wideLeft ∧ right.embed? wide = .ok wideRight ∧
      (∀ operator wideOperation, operator = .add ∨ operator = .subtract →
        Operation.find? operator (.vector wide) (.vector wide) = some wideOperation →
          ∃ operation,
            Operation.find? operator (.vector narrow) (.vector narrow) = some operation ∧
            Agree Eq
              (fun result wideResult => ∃ vector image, result = .vector vector ∧
                vector.embed? wide = .ok image ∧ Value.vector image == wideResult)
              (operation.compute (.vector left) (.vector right))
              (wideOperation.compute (.vector wideLeft) (.vector wideRight))) ∧
      ∃ equality wideEquality,
        Operation.find? .equal (.vector narrow) (.vector narrow) = some equality ∧
        Operation.find? .equal (.vector wide) (.vector wide) = some wideEquality ∧
        equality.compute (.vector left) (.vector right) =
          .ok (.boolean (Value.vector left == Value.vector right)) ∧
        wideEquality.compute (.vector wideLeft) (.vector wideRight) =
          .ok (.boolean (Value.vector left == Value.vector right)) := by
  have coversSpace {vector : SparseVector} (typed : vector.space == narrow) :
      wide.covers vector.space = true := by
    rw [Space.covers_congr typed]
    exact covered
  have embedded {vector : SparseVector} (typed : vector.space == narrow) :
      vector.embed? wide = .ok { vector with space := wide } :=
    embed?_of_covers (coversSpace typed)
  have valueLeft : (Value.vector left).type == .vector narrow :=
    ValueType.vector_beq.trans typedLeft
  have valueRight : (Value.vector right).type == .vector narrow :=
    ValueType.vector_beq.trans typedRight
  have formed : narrow.WellFormed := ofLeft.type_wellFormed.congr valueLeft
  refine ⟨_, _, embedded typedLeft, embedded typedRight, ?_, ?_⟩
  · intro operator wideOperation shape found
    have arithmetic : operator.isArithmetic := by rcases shape with rfl | rfl <;> rfl
    have zeros : operator.integerResult 0 0 = .ok 0 := by rcases shape with rfl | rfl <;> rfl
    have supported := Operation.supports_of_find? ofWide (by simp [ValueType.tag]) found
    have computed := Operator.compute_readAs zeros ofWide covered ofLeft ofRight valueLeft valueRight
      arithmetic supported
    obtain ⟨operation, narrowFound⟩ := Operation.exists_find?_of_covers formed ofWide covered found
    refine ⟨operation, narrowFound, ?_⟩
    rw [Operation.compute_of_find? narrowFound, Operation.compute_of_find? found]
    refine computed.imp (fun _ _ same => same) ?_
    rintro result wideResult ⟨typed, same⟩
    obtain ⟨vector, rfl, agrees⟩ := Value.eq_vector_of_type typed
    exact ⟨vector, _, rfl, embedded agrees, same⟩
  · obtain ⟨wideEquality, wideFound⟩ :=
      Operation.exists_find?_of_supports ofWide (Operator.supports_equal (.vector wide))
    obtain ⟨equality, found⟩ := Operation.exists_find?_of_covers formed ofWide covered wideFound
    have types := BEq.trans valueLeft (BEq.symm valueRight)
    have wideSame := Value.beq_readAs ofWide ofLeft ofRight types (coversSpace typedLeft)
    refine ⟨equality, wideEquality, found, wideFound, ?_, ?_⟩
    · rw [Operation.compute_of_find? found]
      exact Operator.compute_equal types
    · rw [Operation.compute_of_find? wideFound, ← wideSame]
      exact Operator.compute_equal BEq.rfl

/-- An overflow in a nested vector is the same one between new dimensions. -/
theorem embed?_commutes_overflow :
    let inner : Space := .unit ⟨"a", .tick⟩
    let narrow : Space := ⟨[(⟨"v", .tick⟩, .vector inner)]⟩
    let wide : Space := ⟨[(⟨"b", .tick⟩, .vector inner), (⟨"v", .tick⟩, .vector inner),
      (⟨"w", .tick⟩, .integer)]⟩
    let flat (number : Int) : Value := .vector ⟨inner, [(⟨"a", .tick⟩, .integer number)]⟩
    let nested (number : Int) : SparseVector := ⟨narrow, [(⟨"v", .tick⟩, flat number)]⟩
    let sum : Operation := ⟨.add, .vector wide, .vector wide⟩
    wide.WellFormed ∧ wide.covers narrow = true ∧
      Operation.find? .add (.vector wide) (.vector wide) = some sum ∧
      ∃ wideLeft wideRight operation fault, (nested greatestInteger).embed? wide = .ok wideLeft ∧
        (nested 1).embed? wide = .ok wideRight ∧
        Operation.find? .add (.vector narrow) (.vector narrow) = some operation ∧
        operation.compute (.vector (nested greatestInteger)) (.vector (nested 1)) = .error fault ∧
        sum.compute (.vector wideLeft) (.vector wideRight) = .error fault := by
  intro inner narrow wide flat nested sum
  have covered : wide.covers narrow = true := rfl
  have found : Operation.find? .add (.vector wide) (.vector wide) = some sum := rfl
  have ofInner : (ValueType.vector inner).WellFormed := Space.unit_wellFormed _
  have ofNarrow : narrow.WellFormed :=
    .vector _ (List.pairwise_singleton _ _) (List.forall_mem_singleton.2 ofInner)
  have ofWide : wide.WellFormed := .vector _ (by unfold Symbol.Ascending; decide)
    (by simp [ofInner, ValueType.WellFormed.integer])
  have formed {number : Int} (small : Representable number)
      (nonzero : (Value.integer number).isZero = false) :
      (Value.vector (nested number)).WellFormed :=
    single_wellFormed ofNarrow rfl
      (single_wellFormed ofInner rfl (.integer number small) BEq.rfl nonzero) BEq.rfl rfl
  obtain ⟨wideLeft, wideRight, ofLeft, ofRight, arithmetic, -⟩ := embed?_commutes ofWide covered
    (formed (by decide) rfl) (formed (by decide) rfl)
    (show (nested greatestInteger).space == narrow from BEq.rfl)
    (show (nested 1).space == narrow from BEq.rfl)
  obtain ⟨operation, narrowFound, agree⟩ := arithmetic .add sum (.inl rfl) found
  have failed : operation.compute (.vector (nested greatestInteger)) (.vector (nested 1)) =
      .error (.overflow .add greatestInteger 1) := by
    rw [Operation.compute_of_find? narrowFound]
    rfl
  exact ⟨ofWide, covered, found, wideLeft, wideRight, operation, _, ofLeft, ofRight, narrowFound,
    failed, agree.eq_error_iff.1 failed⟩

end SparseVector

end DiceOdds
