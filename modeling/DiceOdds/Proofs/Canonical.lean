import DiceOdds.Proofs.Computation
import DiceOdds.Proofs.SpaceJoin

/-
This file shows that sparse vectors are canonical. Every constructor keeps vectors well formed, a
list of components decides what each dimension reads as, and vectors of one space are equal when
they read alike in every dimension.
-/

namespace DiceOdds

namespace ValueType

/-- Equal types have equal zeros. -/
theorem zero_congr {first second : ValueType} (same : first == second) :
    first.zero == second.zero := by
  refine Value.beq_iff.2 ⟨by simpa using same, ?_⟩
  rw [Value.leaves_zero, Value.leaves_zero, leafCount_congr same]

theorem beq_zero_iff_leaves {value : Value} :
    value == value.type.zero ↔ value.leaves = List.replicate value.type.leafCount 0 := by
  rw [Value.beq_iff, Value.leaves_zero, zero_type]
  exact and_iff_right BEq.rfl

end ValueType

namespace Value

theorem beq_zero_of_isZero {value : Value} (zero : value.isZero = true) :
    value == value.type.zero :=
  ValueType.beq_zero_iff_leaves.2 (leaves_of_isZero zero)

/-- A well-formed value without a nonzero leaf is zero, since it would store a component otherwise. -/
theorem WellFormed.isZero_of_leaves {value : Value} (formed : value.WellFormed)
    (zeros : ∀ leaf ∈ value.leaves, leaf = 0) : value.isZero = true := by
  induction formed with
  | integer number => simpa [leaves, isZero] using zeros
  | boolean truth => cases truth <;> simp_all [leaves, isZero]
  | symbol category => rfl
  | vector space components ofSpace ascending stored typed nonzero known =>
      cases components with
      | nil => rfl
      | cons component rest =>
          have head : component ∈ component :: rest := List.mem_cons_self
          obtain ⟨type, present, -⟩ := typed component head
          obtain ⟨dimension, member, same⟩ := Symbol.mem_of_lookup present
          have found : (component :: rest).lookup dimension = some component.2 :=
            Symbol.lookup_of_mem ascending head (BEq.symm same)
          have zero : component.2.isZero = true := by
            refine known component head fun leaf inside => zeros leaf ?_
            simp only [leaves, componentLeaves_eq_map, Symbol.lookup_map_snd]
            refine List.mem_flatMap.2 ⟨_, member, ?_⟩
            rw [found]
            exact inside
          rw [nonzero component head] at zero
          cases zero

/-- A well-formed value counts as zero when it equals the zero of its type. -/
theorem WellFormed.isZero_iff {value : Value} (formed : value.WellFormed) :
    value.isZero = true ↔ value == value.type.zero := by
  refine ⟨beq_zero_of_isZero, fun same => formed.isZero_of_leaves fun leaf member => ?_⟩
  rw [ValueType.beq_zero_iff_leaves.1 same] at member
  exact (List.mem_replicate.1 member).2

end Value

namespace SparseVector

/-- A component fits a space that has its dimension with its type. -/
def Fits (space : Space) (component : Symbol × Value) : Prop :=
  ∃ type, space.find? component.1 = some type ∧ type == component.2.type

/-- One component is stored if it fits the space, and a zero takes the place of a stored one. -/
theorem set?_eq_ok_iff {vector next : SparseVector} {dimension : Symbol} {value : Value} :
    vector.set? dimension value = .ok next ↔ Fits vector.space (dimension, value) ∧
      next = { vector with
        components := if value.isZero then dimension.drop vector.components
          else dimension.put value vector.components } := by
  simp only [set?, Fits]
  cases vector.space.find? dimension with
  | none => simp
  | some type =>
      cases same : type == value.type with
      | false => simp [same]
      | true =>
          simp only [same, if_true, Option.some.injEq, exists_eq_left', true_and]
          cases value.isZero <;>
            simp only [if_true, if_false, Bool.false_eq_true, Except.ok.injEq] <;> exact eq_comm

/-- A list of components makes a vector when its last component is stored in the vector of the
others. -/
theorem ofComponents?_concat_eq_ok_iff {space : Space} {components : List (Symbol × Value)}
    {component : Symbol × Value} {vector : SparseVector} :
    ofComponents? space (components ++ [component]) = .ok vector ↔
      ∃ before, ofComponents? space components = .ok before ∧
        before.set? component.1 component.2 = .ok vector := by
  rw [ofComponents?, List.foldlM_append]
  simp only [List.foldlM_cons, List.foldlM_nil, bind_pure]
  rw [← ofComponents?]
  cases ofComponents? space components <;> simp [bind, Except.bind]

theorem space_of_ofComponents? {space : Space} {components : List (Symbol × Value)}
    {vector : SparseVector} (built : ofComponents? space components = .ok vector) :
    vector.space = space := by
  induction components using List.reverseRecOn generalizing vector with
  | nil => cases built; rfl
  | append_singleton components component known =>
      obtain ⟨before, earlier, stored⟩ := ofComponents?_concat_eq_ok_iff.1 built
      obtain ⟨-, rfl⟩ := set?_eq_ok_iff.1 stored
      change before.space = space
      exact known earlier

/-- Components make a vector exactly when all of them fit the space. -/
theorem exists_ofComponents?_iff {space : Space} {components : List (Symbol × Value)} :
    (∃ vector, ofComponents? space components = .ok vector) ↔
      ∀ component ∈ components, Fits space component := by
  induction components using List.reverseRecOn with
  | nil => exact ⟨by simp, fun _ => ⟨_, rfl⟩⟩
  | append_singleton components component known =>
      simp only [ofComponents?_concat_eq_ok_iff, List.forall_mem_append, List.forall_mem_singleton,
        ← known, set?_eq_ok_iff]
      constructor
      · rintro ⟨vector, before, earlier, fits, -⟩
        exact ⟨⟨before, earlier⟩, space_of_ofComponents? earlier ▸ fits⟩
      · rintro ⟨⟨before, earlier⟩, fits⟩
        exact ⟨_, before, earlier, (space_of_ofComponents? earlier).symm ▸ fits, rfl⟩

/-- Of the components in one dimension the last one is stored, unless it is zero. -/
theorem lookup_ofComponents? {space : Space} {components : List (Symbol × Value)}
    {vector : SparseVector} (built : ofComponents? space components = .ok vector)
    (symbol : Symbol) :
    vector.components.lookup symbol =
      (components.reverse.lookup symbol).filter fun value => !value.isZero := by
  induction components using List.reverseRecOn generalizing vector with
  | nil => cases built; rfl
  | append_singleton components component known =>
      obtain ⟨before, earlier, stored⟩ := ofComponents?_concat_eq_ok_iff.1 built
      obtain ⟨-, rfl⟩ := set?_eq_ok_iff.1 stored
      rw [List.reverse_append, List.reverse_singleton, List.singleton_append, List.lookup_cons]
      cases zero : component.2.isZero with
      | true =>
          rw [if_pos rfl, Symbol.lookup_drop, known earlier]
          cases symbol == component.1 <;> simp [Option.filter, zero]
      | false =>
          rw [if_neg Bool.false_ne_true, Symbol.lookup_put, known earlier]
          cases symbol == component.1 <;> simp [Option.filter, zero]

/-- A vector reads as the last component in a dimension, and as zero where there is none. -/
theorem component?_ofComponents? {space : Space} {components : List (Symbol × Value)}
    {vector : SparseVector} (built : ofComponents? space components = .ok vector)
    (symbol : Symbol) :
    Option.Rel (fun one other : Value => one == other) (vector.component? symbol)
      ((space.find? symbol).map fun type =>
        (components.reverse.lookup symbol).getD type.zero) := by
  rw [component?, lookup_ofComponents? built, space_of_ofComponents? built]
  cases present : space.find? symbol with
  | none => exact .none
  | some type =>
      refine .some ?_
      cases given : components.reverse.lookup symbol with
      | none => exact BEq.rfl
      | some value =>
          rw [Option.filter_some]
          cases zero : value.isZero with
          | false => exact BEq.rfl
          | true =>
              -- A zero is not stored, so the dimension reads as the zero of its own type.
              obtain ⟨key, member, same⟩ := Symbol.mem_of_lookup given
              obtain ⟨own, found, agrees⟩ :=
                exists_ofComponents?_iff.1 ⟨vector, built⟩ _ (List.mem_reverse.1 member)
              rw [← Space.find?_congr same, present] at found
              obtain rfl := Option.some.inj found
              exact BEq.trans (ValueType.zero_congr agrees)
                (BEq.symm (Value.beq_zero_of_isZero zero))

/-- A vector has the same leaves in equal spaces. -/
theorem leaves_congr {vector : SparseVector} {space : Space} (same : vector.space == space) :
    (Value.vector { vector with space := space }).leaves = (Value.vector vector).leaves := by
  obtain ⟨⟨dimensions⟩, components⟩ := vector
  obtain ⟨others⟩ := space
  have agree := Space.beq_iff.1 same
  change List.Forall₂ _ dimensions others at agree
  simp only [Value.leaves]
  clear same
  induction agree with
  | nil => rfl
  | cons agrees rest known =>
      rw [List.flatMap_cons, List.flatMap_cons, known, Symbol.lookup_congr agrees.1,
        ValueType.leafCount_congr agrees.2]

/-- The leaves of a vector are those of its dimensions in turn. -/
theorem leaves_eq_flatMap {vector : SparseVector} (formed : (Value.vector vector).WellFormed) :
    (Value.vector vector).leaves = vector.space.dimensions.flatMap fun dimension =>
      ((vector.component? dimension.1).map Value.leaves).getD
        (List.replicate dimension.2.leafCount 0) := by
  obtain ⟨space, components⟩ := vector
  have ofSpace : space.WellFormed := formed.type_wellFormed
  exact leaves_embed formed ofSpace (Space.covers_self ofSpace)

/-- Vectors of one space are equal when they read alike in every dimension. -/
theorem beq_iff_component? {first second : SparseVector} (ofFirst : (Value.vector first).WellFormed)
    (ofSecond : (Value.vector second).WellFormed) (same : first.space == second.space) :
    Value.vector first == Value.vector second ↔ ∀ dimension ∈ first.space.dimensions,
      Option.Rel (fun one other : Value => one == other) (first.component? dimension.1)
        (second.component? dimension.1) := by
  constructor
  · intro equal dimension _
    rw [component?_eq_lookup, component?_eq_lookup]
    exact lookup_forall₂ (reading_congr ofFirst ofSecond equal) dimension.1
  · intro alike
    have ofSpace : first.space.WellFormed := ofFirst.type_wellFormed
    have covered := Space.covers_self ofSpace
    rw [Space.covers_congr same] at covered
    refine Value.beq_iff.2 ⟨by rwa [Value.type, Value.type, ValueType.vector_beq], ?_⟩
    -- Both vectors are read in the dimensions of the first space.
    rw [leaves_eq_flatMap ofFirst, ← leaves_congr (BEq.symm same),
      leaves_embed ofSecond ofSpace covered]
    apply List.flatMap_congr
    intro dimension member
    have related := alike dimension member
    generalize first.component? dimension.1 = left at related ⊢
    generalize second.component? dimension.1 = right at related ⊢
    cases related with
    | none => rfl
    | some agrees => rw [Option.map_some, Option.map_some, (Value.beq_iff.1 agrees).2]

/-- Two vectors of one space are combined dimension by dimension, and the first fault decides. -/
def zip? (left right : SparseVector) (image : Value → Value → Except Fault Value) :
    Except Fault SparseVector := do
  let components ← (left.reading.zip right.reading).mapM fun pair => do
    return (pair.1.1, ← image pair.1.2 pair.2.2)
  ofComponents? left.space components

/-- What a well-formed vector reads as is well formed in every dimension. -/
theorem wellFormed_of_mem_reading {vector : SparseVector}
    (formed : (Value.vector vector).WellFormed) {component : Symbol × Value}
    (member : component ∈ vector.reading) : component.2.WellFormed := by
  obtain ⟨dimension, -, -, ofComponent, -⟩ := exists_fills (reading_fills formed) component member
  exact ofComponent

theorem zip?_wellFormed {left right vector : SparseVector}
    {image : Value → Value → Except Fault Value} (ofLeft : (Value.vector left).WellFormed)
    (ofRight : (Value.vector right).WellFormed)
    (keeps : ∀ first second value, first.WellFormed → second.WellFormed →
      image first second = .ok value → value.WellFormed)
    (zipped : left.zip? right image = .ok vector) : (Value.vector vector).WellFormed := by
  obtain ⟨components, ran, built⟩ := Except.bind_eq_ok zipped
  refine (ofComponents?_wellFormed ofLeft.type_wellFormed (fun component member => ?_) built).1
  obtain ⟨pair, inside, step⟩ := Except.exists_of_mem_mapM ran member
  obtain ⟨value, imaged, made⟩ := Except.bind_eq_ok step
  cases made
  obtain ⟨first, second⟩ := List.of_mem_zip inside
  exact keeps _ _ _ (wellFormed_of_mem_reading ofLeft first)
    (wellFormed_of_mem_reading ofRight second) imaged

end SparseVector

namespace Operator

/-- Arithmetic does not tell equal operand types apart. -/
theorem computeArithmetic_congr (operator : Operator) {first : ValueType} :
    ∀ {second : ValueType}, first == second →
      operator.computeArithmetic first = operator.computeArithmetic second := by
  induction first using ValueType.induction with
  | integer => exact fun same => (ValueType.eq_integer_of_beq (BEq.symm same)) ▸ rfl
  | boolean => exact fun same => (ValueType.eq_boolean_of_beq (BEq.symm same)) ▸ rfl
  | symbol category =>
      intro second same
      obtain ⟨other, rfl, -⟩ := ValueType.eq_symbol_of_beq (BEq.symm same)
      funext left right
      rw [computeArithmetic, computeArithmetic] <;> simp
  | vector dimensions known =>
      intro second same
      obtain ⟨⟨others⟩, rfl, agree⟩ := ValueType.eq_vector_of_beq (BEq.symm same)
      have pairs := Space.beq_iff.1 (BEq.symm agree)
      change List.Forall₂ _ dimensions others at pairs
      have inTurn : operator.computeDimensions dimensions = operator.computeDimensions others := by
        clear same agree
        induction pairs with
        | nil => rfl
        | cons agrees rest tail =>
            obtain ⟨head, later⟩ := List.forall_mem_cons.1 known
            funext lefts rights
            cases lefts with
            | nil => rfl
            | cons left lefts =>
                cases rights with
                | nil => rfl
                | cons right rights =>
                    rw [computeDimensions, computeDimensions, head agrees.2, tail later]
      funext left right
      cases left with
      | vector first =>
          cases right with
          | vector second => rw [computeArithmetic, computeArithmetic, inTurn]
          | integer | boolean | symbol => rfl
      | integer | boolean | symbol => rfl

/-- Arithmetic on dimensions computes on the values of one dimension at a time. -/
theorem computeDimensions_eq_mapM {operator : Operator} (arithmetic : operator.isArithmetic)
    {dimensions : List (Symbol × ValueType)} {left : List (Symbol × Value)}
    (filled : List.Forall₂ Fills dimensions left) (right : List (Symbol × Value)) :
    operator.computeDimensions dimensions left right = (left.zip right).mapM fun pair => do
      return (pair.1.1, ← operator.compute pair.1.2 pair.2.2) := by
  induction filled generalizing right with
  | nil => rfl
  | cons fills rest known =>
      cases right with
      | nil => rfl
      | cons other others =>
          rw [computeDimensions, List.zip_cons_cons, List.mapM_cons, known others,
            compute_arithmetic arithmetic, operator.computeArithmetic_congr fills.2.2]
          simp

/-- Sums and differences of vectors are computed dimension by dimension. -/
theorem compute_vector {operator : Operator} (shape : operator = .add ∨ operator = .subtract)
    {left right : SparseVector} (ofLeft : (Value.vector left).WellFormed)
    (same : left.space == right.space) :
    operator.compute (.vector left) (.vector right) =
      (left.zip? right operator.compute).map .vector := by
  have arithmetic : operator.isArithmetic := by rcases shape with rfl | rfl <;> rfl
  have defined : operator.isDefinedOn .vector := by rcases shape with rfl | rfl <;> rfl
  have inTurn := computeDimensions_eq_mapM arithmetic (SparseVector.reading_fills ofLeft)
    right.reading
  obtain ⟨⟨dimensions⟩, components⟩ := left
  rw [compute_arithmetic arithmetic, Value.type, computeArithmetic,
    if_pos (by simp [defined, same]), inTurn]
  change _ = Value.vector <$> SparseVector.zip? _ right operator.compute
  simp only [SparseVector.zip?, map_bind, bind_pure_comp]

end Operator

namespace SparseVector

/-- These are the vectors that one constructor makes of well-formed values. -/
inductive Constructed : SparseVector → Prop where
  | listed {space : Space} {components : List (Symbol × Value)} {vector : SparseVector}
      (ofSpace : space.WellFormed)
      (formed : ∀ component ∈ components, component.2.WellFormed)
      (made : ofComponents? space components = .ok vector) : Constructed vector
  | zero {space : Space} (ofSpace : space.WellFormed) : Constructed (.zero space)
  | unit (symbol : Symbol) : Constructed (.unit symbol)
  | embedded {vector wide : SparseVector} {target : Space}
      (formed : (Value.vector vector).WellFormed) (ofTarget : target.WellFormed)
      (made : vector.embed? target = .ok wide) : Constructed wide
  | zipped {left right vector : SparseVector} {image : Value → Value → Except Fault Value}
      (ofLeft : (Value.vector left).WellFormed) (ofRight : (Value.vector right).WellFormed)
      (same : left.space == right.space)
      (keeps : ∀ first second value, first.WellFormed → second.WellFormed →
        image first second = .ok value → value.WellFormed)
      (made : left.zip? right image = .ok vector) : Constructed vector

theorem Constructed.wellFormed {vector : SparseVector} (constructed : vector.Constructed) :
    (Value.vector vector).WellFormed := by
  cases constructed with
  | listed ofSpace formed made => exact (ofComponents?_wellFormed ofSpace formed made).1
  | zero ofSpace => exact zero_wellFormed ofSpace
  | unit symbol => exact unit_wellFormed symbol
  | embedded formed ofTarget made => exact (embed?_wellFormed formed ofTarget made).1
  | zipped ofLeft ofRight same keeps made => exact zip?_wellFormed ofLeft ofRight keeps made

/-- Sparse vectors are canonical. Every constructor makes well-formed vectors, among them the sums and
differences, which are combined dimension by dimension. A list of components makes a vector exactly
when all of them fit the space, and the vector reads as the last one in each dimension. A well-formed
value counts as zero when it equals the zero of its type, and two well-formed vectors of one space
are equal when they read alike in every dimension. -/
theorem canonical :
    (∀ vector : SparseVector, vector.Constructed → (Value.vector vector).WellFormed) ∧
    (∀ (operator : Operator) (left right : SparseVector),
      operator = .add ∨ operator = .subtract → (Value.vector left).WellFormed →
        left.space == right.space →
          operator.compute (.vector left) (.vector right) =
            (left.zip? right operator.compute).map .vector) ∧
    (∀ (space : Space) (components : List (Symbol × Value)),
      (∃ vector, ofComponents? space components = .ok vector) ↔
        ∀ component ∈ components, Fits space component) ∧
    (∀ (space : Space) (components : List (Symbol × Value)) (vector : SparseVector),
      ofComponents? space components = .ok vector → ∀ symbol,
        Option.Rel (fun one other : Value => one == other) (vector.component? symbol)
          ((space.find? symbol).map fun type =>
            (components.reverse.lookup symbol).getD type.zero)) ∧
    (∀ value : Value, value.WellFormed → (value.isZero = true ↔ value == value.type.zero)) ∧
    ∀ first second : SparseVector, (Value.vector first).WellFormed →
      (Value.vector second).WellFormed → first.space == second.space →
        (Value.vector first == Value.vector second ↔ ∀ dimension ∈ first.space.dimensions,
          Option.Rel (fun one other : Value => one == other) (first.component? dimension.1)
            (second.component? dimension.1)) :=
  ⟨fun _ constructed => constructed.wellFormed,
    fun _ _ _ shape ofLeft same => Operator.compute_vector shape ofLeft same,
    fun _ _ => exists_ofComponents?_iff,
    fun _ _ _ built => component?_ofComponents? built,
    fun _ formed => formed.isZero_iff,
    fun _ _ ofFirst ofSecond same => beq_iff_component? ofFirst ofSecond same⟩

/-- A component that is set to zero again, under its other mark, leaves nothing behind. -/
theorem canonical_repeated :
    let space : Space := ⟨[(⟨"a", .tick⟩, .integer), (⟨"b", .tick⟩, .integer)]⟩
    let components : List (Symbol × Value) := [(⟨"a", .tick⟩, .integer 3),
      (⟨"b", .colon⟩, .integer 5), (⟨"a", .colon⟩, .integer 0)]
    let vector : SparseVector := ⟨space, [(⟨"b", .colon⟩, .integer 5)]⟩
    let other : SparseVector := ⟨space, [(⟨"b", .tick⟩, .integer 5)]⟩
    ofComponents? space components = .ok vector ∧ (Value.vector vector).WellFormed ∧
      Option.Rel (fun one other : Value => one == other) (vector.component? ⟨"a", .tick⟩)
        (some (.integer 0)) ∧
      ((Value.vector vector).isZero = true ↔ Value.vector vector == .vector (zero space)) ∧
      Value.vector vector == Value.vector other ∧
      (vector.zip? other Operator.subtract.compute).map Value.vector =
        .ok (.vector (zero space)) := by
  intro space components vector other
  obtain ⟨keeps, combine, -, reads, zeros, equals⟩ := canonical
  have made : Space.ofDimensions? space.dimensions = .ok space := rfl
  have ofSpace := Space.extendAll?_wellFormed Space.empty_wellFormed
    (by simp [space, ValueType.WellFormed.integer]) made
  have integer {number : Int} (small : Representable number) : (Value.integer number).WellFormed :=
    .integer number small
  have built : ofComponents? space components = .ok vector := rfl
  have alsoBuilt : ofComponents? space [(⟨"b", .tick⟩, .integer 5)] = .ok other := rfl
  have formed := keeps vector (.listed ofSpace (by
    simp only [components, List.forall_mem_cons]
    exact ⟨integer (by decide), integer (by decide), integer (by decide), by simp⟩) built)
  have alsoFormed := keeps other (.listed ofSpace (by simpa using integer (by decide)) alsoBuilt)
  have difference : Operator.subtract.compute (.vector vector) (.vector other) =
      .ok (.vector (zero space)) := rfl
  refine ⟨built, formed, reads space components vector built _, zeros _ formed, ?_, ?_⟩
  · refine (equals vector other formed alsoFormed BEq.rfl).2 ?_
    have first : Option.Rel (fun one other : Value => one == other)
        (vector.component? ⟨"a", .tick⟩) (other.component? ⟨"a", .tick⟩) := .some BEq.rfl
    have second : Option.Rel (fun one other : Value => one == other)
        (vector.component? ⟨"b", .tick⟩) (other.component? ⟨"b", .tick⟩) := .some BEq.rfl
    exact List.forall_mem_cons.2 ⟨first, List.forall_mem_singleton.2 second⟩
  · exact (combine .subtract vector other (.inr rfl) formed BEq.rfl).symm.trans difference

end SparseVector

end DiceOdds
