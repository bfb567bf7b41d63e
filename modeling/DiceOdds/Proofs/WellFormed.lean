import DiceOdds.Integer.Range
import DiceOdds.Proofs.Agreement
import DiceOdds.Proofs.Keyed
import DiceOdds.SparseVector

/-
This file says which types and values the constructors of vectors can build. Every constructor keeps
its vectors well formed, and the leaves of a vector are those of its components in turn.
-/

namespace DiceOdds

/-- A type is well formed when the names of its dimensions increase at every depth. -/
inductive ValueType.WellFormed : ValueType → Prop where
  | integer : WellFormed .integer
  | boolean : WellFormed .boolean
  | symbol (category : Symbol) : WellFormed (.symbol category)
  | vector (dimensions : List (Symbol × ValueType)) (ascending : Symbol.Ascending dimensions)
      (inner : ∀ dimension ∈ dimensions, WellFormed dimension.2) : WellFormed (.vector ⟨dimensions⟩)

/-- A space is well formed when the type of its vectors is. -/
def Space.WellFormed (space : Space) : Prop :=
  (ValueType.vector space).WellFormed

theorem Space.WellFormed.ascending {space : Space} (formed : space.WellFormed) :
    Symbol.Ascending space.dimensions := by
  cases formed with
  | vector dimensions ascending => exact ascending

theorem Space.WellFormed.inner {space : Space} (formed : space.WellFormed) :
    ∀ dimension ∈ space.dimensions, dimension.2.WellFormed := by
  cases formed with
  | vector dimensions ascending inner => exact inner

/-- A value is well formed when its integers are representable and each of its vectors stores
nonzero components only, in increasing order, of the types that its space gives to them. -/
inductive Value.WellFormed : Value → Prop where
  | integer (number : Int) (representable : Representable number) : WellFormed (.integer number)
  | boolean (truth : Bool) : WellFormed (.boolean truth)
  | symbol (category : Symbol) : WellFormed (.symbol category)
  | vector (space : Space) (components : List (Symbol × Value)) (ofSpace : space.WellFormed)
      (ascending : Symbol.Ascending components)
      (stored : ∀ component ∈ components, WellFormed component.2)
      (typed : ∀ component ∈ components,
        ∃ type, space.find? component.1 = some type ∧ type == component.2.type)
      (nonzero : ∀ component ∈ components, component.2.isZero = false) :
      WellFormed (.vector ⟨space, components⟩)

theorem Value.WellFormed.type_wellFormed {value : Value} (formed : value.WellFormed) :
    value.type.WellFormed := by
  cases formed with
  | integer => exact .integer
  | boolean => exact .boolean
  | symbol category => exact .symbol category
  | vector space components ofSpace => exact ofSpace

namespace ValueType

@[simp] theorem zero_type (type : ValueType) : type.zero.type = type := by
  cases type <;> rfl

theorem zero_wellFormed {type : ValueType} (formed : type.WellFormed) : type.zero.WellFormed := by
  cases formed with
  | integer => exact .integer 0 (by decide)
  | boolean => exact .boolean false
  | symbol category => exact .symbol category
  | vector dimensions ascending inner =>
      exact .vector ⟨dimensions⟩ [] (.vector dimensions ascending inner) List.Pairwise.nil
        (by simp) (by simp) (by simp)

theorem dimensionLeafCount_eq_sum (dimensions : List (Symbol × ValueType)) :
    dimensionLeafCount dimensions = (dimensions.map fun dimension => dimension.2.leafCount).sum := by
  induction dimensions with
  | nil => rfl
  | cons dimension rest known => rw [dimensionLeafCount, known, List.map_cons, List.sum_cons]

/-- Equal types have equally many leaves. -/
theorem leafCount_congr {first : ValueType} :
    ∀ {second : ValueType}, first == second → first.leafCount = second.leafCount := by
  induction first using induction with
  | integer => exact fun same => (eq_integer_of_beq (BEq.symm same)) ▸ rfl
  | boolean => exact fun same => (eq_boolean_of_beq (BEq.symm same)) ▸ rfl
  | symbol category =>
      intro second same
      obtain ⟨other, rfl, -⟩ := eq_symbol_of_beq (BEq.symm same)
      rfl
  | vector dimensions known =>
      intro second same
      obtain ⟨⟨others⟩, rfl, agree⟩ := eq_vector_of_beq (BEq.symm same)
      have pairs := Space.beq_iff.1 (BEq.symm agree)
      change List.Forall₂ _ dimensions others at pairs
      simp only [leafCount, dimensionLeafCount_eq_sum]
      clear same agree
      induction pairs with
      | nil => rfl
      | cons agrees rest tail =>
          obtain ⟨head, later⟩ := List.forall_mem_cons.1 known
          rw [List.map_cons, List.map_cons, List.sum_cons, List.sum_cons, head agrees.2, tail later]

/-- Types that equal a well-formed one are well formed. -/
theorem WellFormed.congr {first : ValueType} :
    ∀ {second : ValueType}, first.WellFormed → first == second → second.WellFormed := by
  induction first using induction with
  | integer => exact fun formed same => eq_integer_of_beq (BEq.symm same) ▸ formed
  | boolean => exact fun formed same => eq_boolean_of_beq (BEq.symm same) ▸ formed
  | symbol category =>
      intro second formed same
      obtain ⟨other, rfl, -⟩ := eq_symbol_of_beq (BEq.symm same)
      exact .symbol other
  | vector dimensions known =>
      intro second formed same
      obtain ⟨⟨others⟩, rfl, agree⟩ := eq_vector_of_beq (BEq.symm same)
      have pairs := Space.beq_iff.1 (BEq.symm agree)
      have ascending := Symbol.Ascending.congr (pairs.imp fun _ _ agrees => agrees.1)
        (Space.WellFormed.ascending formed)
      refine .vector others ascending ?_
      have inner := Space.WellFormed.inner formed
      change ∀ dimension ∈ dimensions, _ at inner
      change List.Forall₂ _ dimensions others at pairs
      clear formed same agree ascending
      induction pairs with
      | nil => simp
      | cons agrees rest tail =>
          obtain ⟨knownHead, knownRest⟩ := List.forall_mem_cons.1 known
          obtain ⟨head, later⟩ := List.forall_mem_cons.1 inner
          exact List.forall_mem_cons.2 ⟨knownHead head agrees.2, tail knownRest later⟩

end ValueType

namespace Value

theorem componentLeaves_eq_map (components : List (Symbol × Value)) :
    componentLeaves components =
      components.map fun component => (component.1, component.2.leaves) := by
  induction components with
  | nil => rfl
  | cons component rest known => rw [componentLeaves, known, List.map_cons]

/-- All leaves of a zero are zero. -/
theorem leaves_of_isZero {value : Value} (zero : value.isZero = true) :
    value.leaves = List.replicate value.type.leafCount 0 := by
  rcases value with number | truth | category | ⟨⟨dimensions⟩, components⟩
  · simp_all [isZero, leaves, type, ValueType.leafCount]
  · simp_all [isZero, leaves, type, ValueType.leafCount]
  · rfl
  · obtain rfl : components = [] := List.isEmpty_iff.1 zero
    simp only [leaves, componentLeaves, List.lookup_nil, Option.getD_none, type,
      ValueType.leafCount, ValueType.dimensionLeafCount_eq_sum]
    refine List.eq_replicate_iff.2 ⟨by simp [List.length_flatMap], fun leaf member => ?_⟩
    obtain ⟨dimension, -, inside⟩ := List.mem_flatMap.1 member
    exact (List.mem_replicate.1 inside).2

theorem leaves_zero (type : ValueType) :
    type.zero.leaves = List.replicate type.leafCount 0 := by
  have zero : type.zero.isZero = true := by cases type <;> rfl
  simpa using leaves_of_isZero zero

/-- The leaves of a vector are those of its reading. -/
theorem leaves_vector (vector : SparseVector) :
    (Value.vector vector).leaves = vector.reading.flatMap fun component => component.2.leaves := by
  obtain ⟨space, components⟩ := vector
  simp only [leaves, SparseVector.reading, List.flatMap_map, componentLeaves_eq_map,
    Symbol.lookup_map_snd]
  congr 1
  funext dimension
  cases components.lookup dimension.1 <;> simp [leaves_zero]

/-- What a well-formed vector stores in a dimension has the type of the dimension. -/
theorem mem_of_lookup_dimension {space : Space} {components : List (Symbol × Value)}
    (ofSpace : space.WellFormed)
    (typed : ∀ component ∈ components,
      ∃ type, space.find? component.1 = some type ∧ type == component.2.type)
    {dimension : Symbol × ValueType} (member : dimension ∈ space.dimensions) {value : Value}
    (found : components.lookup dimension.1 = some value) :
    ∃ key, (key, value) ∈ components ∧ dimension.2 == value.type := by
  obtain ⟨key, inside, same⟩ := Symbol.mem_of_lookup found
  obtain ⟨type, present, agrees⟩ := typed _ inside
  have own : space.find? key = some dimension.2 :=
    Symbol.lookup_of_mem ofSpace.ascending member (BEq.symm same)
  rw [own] at present
  obtain rfl := Option.some.inj present
  exact ⟨key, inside, agrees⟩

/-- A well-formed value has as many leaves as its type. -/
theorem WellFormed.leaves_length {value : Value} (formed : value.WellFormed) :
    value.leaves.length = value.type.leafCount := by
  induction formed with
  | integer => rfl
  | boolean => rfl
  | symbol => rfl
  | vector space components ofSpace ascending stored typed nonzero known =>
      obtain ⟨dimensions⟩ := space
      simp only [leaves, componentLeaves_eq_map, Symbol.lookup_map_snd, List.length_flatMap, type,
        ValueType.leafCount, ValueType.dimensionLeafCount_eq_sum]
      congr 1
      apply List.map_congr_left
      intro dimension member
      cases found : components.lookup dimension.1 with
      | none => simp
      | some value =>
          obtain ⟨key, inside, agrees⟩ := mem_of_lookup_dimension ofSpace typed member found
          rw [Option.map_some, Option.getD_some, known _ inside, ValueType.leafCount_congr agrees]

end Value

/-- A component fills a dimension when it has its name and a well-formed value of its type. -/
def Fills (dimension : Symbol × ValueType) (component : Symbol × Value) : Prop :=
  component.1 = dimension.1 ∧ component.2.WellFormed ∧ dimension.2 == component.2.type

namespace SparseVector

/-- The reading of a well-formed vector fills every dimension of its space. -/
theorem reading_fills {vector : SparseVector} (formed : (Value.vector vector).WellFormed) :
    List.Forall₂ Fills vector.space.dimensions vector.reading := by
  rcases formed with _ | _ | _ | ⟨space, components, ofSpace, ascending, stored, typed, nonzero⟩
  rw [reading, List.forall₂_map_right_iff, List.forall₂_same]
  intro dimension member
  cases found : components.lookup dimension.1 with
  | none =>
      exact ⟨rfl, ValueType.zero_wellFormed (ofSpace.inner dimension member), by simp⟩
  | some value =>
      obtain ⟨key, inside, agrees⟩ := Value.mem_of_lookup_dimension ofSpace typed member found
      exact ⟨rfl, stored (key, value) inside, agrees⟩

/-- Components of different names that fit a space are stored unless they are zero. -/
theorem ofComponents?_of_distinct {space : Space} {components : List (Symbol × Value)}
    (distinct : Symbol.Distinct components)
    (typed : ∀ component ∈ components,
      ∃ type, space.find? component.1 = some type ∧ type == component.2.type) :
    ∃ stored, ofComponents? space components = .ok ⟨space, stored⟩ ∧ Symbol.Ascending stored ∧
      stored.Perm (components.filter fun component => !component.2.isZero) := by
  have more (earlier : List (Symbol × Value)) (ordered : Symbol.Ascending earlier)
      (apart : Symbol.Distinct (earlier ++ components)) : ∃ stored,
        components.foldlM (fun vector component => vector.set? component.1 component.2)
          (⟨space, earlier⟩ : SparseVector) = .ok ⟨space, stored⟩ ∧ Symbol.Ascending stored ∧
          stored.Perm (earlier ++ components.filter fun component => !component.2.isZero) := by
    clear distinct
    induction components generalizing earlier with
    | nil => exact ⟨earlier, rfl, ordered, by simp⟩
    | cons component rest known =>
        obtain ⟨⟨type, present, agrees⟩, later⟩ := List.forall_mem_cons.1 typed
        have moved := apart.perm List.perm_middle
        obtain ⟨before, others⟩ := List.pairwise_cons.1 moved
        have absent : ∀ entry ∈ earlier, (component.1 == entry.1) = false :=
          fun entry member => before entry (List.mem_append_left _ member)
        rw [List.foldlM_cons]
        simp only [set?, present, agrees, if_true]
        cases zero : component.2.isZero with
        | true =>
            simp only [if_true, Symbol.drop_of_absent absent]
            obtain ⟨stored, made, ascending, same⟩ := known later earlier ordered others
            exact ⟨stored, made, ascending, by simpa [zero] using same⟩
        | false =>
            rw [if_neg Bool.false_ne_true]
            have added : (component.1.put component.2 earlier).Perm (component :: earlier) :=
              Symbol.put_perm absent
            obtain ⟨stored, made, ascending, same⟩ := known later _ (Symbol.ascending_put ordered)
              (moved.perm (added.symm.append_right rest))
            refine ⟨stored, made, ascending, ?_⟩
            rw [List.filter_cons_of_pos (by simp [zero])]
            exact same.trans ((added.append_right _).trans List.perm_middle.symm)
  exact more [] List.Pairwise.nil distinct

theorem ofComponents?_of_ascending {space : Space} {components : List (Symbol × Value)}
    (ascending : Symbol.Ascending components)
    (typed : ∀ component ∈ components,
      ∃ type, space.find? component.1 = some type ∧ type == component.2.type) :
    ofComponents? space components =
      .ok ⟨space, components.filter fun component => !component.2.isZero⟩ := by
  obtain ⟨stored, made, ordered, same⟩ := ofComponents?_of_distinct ascending.distinct typed
  rw [made, ordered.eq_of_perm (List.Pairwise.filter _ ascending) same]

/-- Components that fill the dimensions in turn have the names of the dimensions. -/
theorem map_fst_of_fills {dimensions : List (Symbol × ValueType)}
    {components : List (Symbol × Value)} (filled : List.Forall₂ Fills dimensions components) :
    components.map Prod.fst = dimensions.map Prod.fst := by
  induction filled with
  | nil => rfl
  | cons fills rest known => rw [List.map_cons, List.map_cons, fills.1, known]

theorem ascending_of_fills {dimensions : List (Symbol × ValueType)}
    {components : List (Symbol × Value)} (ascending : Symbol.Ascending dimensions)
    (filled : List.Forall₂ Fills dimensions components) : Symbol.Ascending components := by
  have names : (components.map Prod.fst).Pairwise fun first second => compare first second = .lt := by
    rw [map_fst_of_fills filled]
    exact List.pairwise_map.2 ascending
  exact List.pairwise_map.1 names

/-- Every filling component fills a dimension of the list. -/
theorem exists_fills {dimensions : List (Symbol × ValueType)} {components : List (Symbol × Value)}
    (filled : List.Forall₂ Fills dimensions components) :
    ∀ component ∈ components, ∃ dimension ∈ dimensions, Fills dimension component := by
  induction filled with
  | nil => simp
  | cons fills rest known =>
      refine List.forall_mem_cons.2 ⟨⟨_, List.mem_cons_self, fills⟩, fun component member => ?_⟩
      obtain ⟨dimension, inside, found⟩ := known component member
      exact ⟨dimension, List.mem_cons_of_mem _ inside, found⟩

theorem find?_of_fills {dimensions : List (Symbol × ValueType)} {components : List (Symbol × Value)}
    (ascending : Symbol.Ascending dimensions) (filled : List.Forall₂ Fills dimensions components) :
    ∀ component ∈ components,
      ∃ type, dimensions.lookup component.1 = some type ∧ type == component.2.type := by
  intro component member
  obtain ⟨dimension, inside, name, -, agrees⟩ := exists_fills filled component member
  exact ⟨dimension.2, Symbol.lookup_of_mem ascending inside (by simp [name]), agrees⟩

/-- A vector that is built from a filling has the leaves of the filling. -/
theorem leaves_of_fills {space : Space} {components : List (Symbol × Value)}
    (ascending : Symbol.Ascending components)
    (filled : List.Forall₂ Fills space.dimensions components) :
    (Value.vector ⟨space, components.filter fun component => !component.2.isZero⟩).leaves =
      components.flatMap fun component => component.2.leaves := by
  simp only [Value.leaves, Value.componentLeaves_eq_map, Symbol.lookup_map_snd]
  have inTurn (dimensions : List (Symbol × ValueType)) (chosen : List (Symbol × Value))
      (inside : ∀ component ∈ chosen, component ∈ components)
      (fills : List.Forall₂ Fills dimensions chosen) :
      (dimensions.flatMap fun dimension =>
        (((components.filter fun component => !component.2.isZero).lookup dimension.1).map
          Value.leaves).getD (List.replicate dimension.2.leafCount 0)) =
        chosen.flatMap fun component => component.2.leaves := by
    induction fills with
    | nil => rfl
    | @cons dimension component dimensions chosen fits rest known =>
        obtain ⟨head, later⟩ := List.forall_mem_cons.1 inside
        obtain ⟨name, formed, agrees⟩ := fits
        rw [List.flatMap_cons, List.flatMap_cons, known later]
        rw [Symbol.lookup_filter ascending head (by simp [name])]
        congr 1
        cases zero : component.2.isZero with
        | false => rfl
        | true =>
            rw [Value.leaves_of_isZero zero, ValueType.leafCount_congr agrees]
            rfl
  exact inTurn space.dimensions components (fun _ member => member) filled

/-- A filling of a well-formed space builds a well-formed vector with the leaves of the filling. -/
theorem ofComponents?_of_fills {space : Space} {components : List (Symbol × Value)}
    (ofSpace : space.WellFormed) (filled : List.Forall₂ Fills space.dimensions components) :
    ∃ vector, ofComponents? space components = .ok vector ∧ (Value.vector vector).WellFormed ∧
      vector.space = space ∧
      (Value.vector vector).leaves = components.flatMap fun component => component.2.leaves := by
  have ascending := ascending_of_fills ofSpace.ascending filled
  have typed := find?_of_fills ofSpace.ascending filled
  refine ⟨_, ofComponents?_of_ascending ascending typed, ?_, rfl, leaves_of_fills ascending filled⟩
  refine .vector space _ ofSpace (List.Pairwise.filter _ ascending) ?_ ?_ ?_
  · intro component member
    obtain ⟨dimension, -, -, formed, -⟩ := exists_fills filled component (List.mem_filter.1 member).1
    exact formed
  · exact fun component member => typed component (List.mem_filter.1 member).1
  · intro component member
    simpa using (List.mem_filter.1 member).2

/-- Storing a well-formed value keeps a vector well formed. -/
theorem set?_wellFormed {vector next : SparseVector} {dimension : Symbol} {value : Value}
    (formed : (Value.vector vector).WellFormed) (ofValue : value.WellFormed)
    (stored : vector.set? dimension value = .ok next) :
    (Value.vector next).WellFormed ∧ next.space = vector.space := by
  rcases formed with _ | _ | _ | ⟨space, components, ofSpace, ascending, kept, typed, nonzero⟩
  simp only [set?] at stored
  split at stored
  · cases stored
  · next type present =>
      split at stored
      · next agrees =>
          split at stored
          · cases stored
            refine ⟨.vector space _ ofSpace (Symbol.ascending_drop ascending) ?_ ?_ ?_, rfl⟩
            · exact fun component member => kept component (List.mem_filter.1 member).1
            · exact fun component member => typed component (List.mem_filter.1 member).1
            · exact fun component member => nonzero component (List.mem_filter.1 member).1
          · next notZero =>
              cases stored
              refine ⟨.vector space _ ofSpace (Symbol.ascending_put ascending) ?_ ?_ ?_, rfl⟩
              · intro component member
                rcases Symbol.mem_put member with old | ⟨same, -⟩
                · exact kept component old
                · exact same ▸ ofValue
              · intro component member
                rcases Symbol.mem_put member with old | ⟨same, name⟩
                · exact typed component old
                · refine ⟨type, ?_, same ▸ agrees⟩
                  rw [Space.find?, Symbol.lookup_congr name]
                  exact present
              · intro component member
                rcases Symbol.mem_put member with old | ⟨same, -⟩
                · exact nonzero component old
                · simpa [same] using notZero
      · cases stored

theorem zero_wellFormed {space : Space} (formed : space.WellFormed) :
    (Value.vector (zero space)).WellFormed :=
  ValueType.zero_wellFormed formed

/-- Of the components of any order and number the vector keeps a well-formed selection. -/
theorem ofComponents?_wellFormed {space : Space} {components : List (Symbol × Value)}
    {vector : SparseVector} (ofSpace : space.WellFormed)
    (formed : ∀ component ∈ components, component.2.WellFormed)
    (built : ofComponents? space components = .ok vector) :
    (Value.vector vector).WellFormed ∧ vector.space = space := by
  have onward (start : SparseVector) (ofStart : (Value.vector start).WellFormed)
      (ran : components.foldlM (fun vector component => vector.set? component.1 component.2) start =
        .ok vector) : (Value.vector vector).WellFormed ∧ vector.space = start.space := by
    clear built
    induction components generalizing start with
    | nil =>
        cases ran
        exact ⟨ofStart, rfl⟩
    | cons component rest known =>
        obtain ⟨ofComponent, later⟩ := List.forall_mem_cons.1 formed
        rw [List.foldlM_cons] at ran
        obtain ⟨next, stored, ran⟩ := Except.bind_eq_ok ran
        obtain ⟨ofNext, sameSpace⟩ := set?_wellFormed ofStart ofComponent stored
        obtain ⟨ofVector, agrees⟩ := known later next ofNext ran
        exact ⟨ofVector, agrees.trans sameSpace⟩
  exact onward (zero space) (zero_wellFormed ofSpace) built

/-- One nonzero component of the right type makes a well-formed vector. -/
theorem single_wellFormed {space : Space} {dimension : Symbol} {type : ValueType} {value : Value}
    (ofSpace : space.WellFormed) (found : space.find? dimension = some type)
    (formed : value.WellFormed) (typed : type == value.type) (nonzero : value.isZero = false) :
    (Value.vector ⟨space, [(dimension, value)]⟩).WellFormed :=
  .vector space _ ofSpace (List.pairwise_singleton _ _) (List.forall_mem_singleton.2 formed)
    (List.forall_mem_singleton.2 ⟨type, found, typed⟩) (List.forall_mem_singleton.2 nonzero)

theorem unit_wellFormed (symbol : Symbol) : (Value.vector (unit symbol)).WellFormed := by
  have ofSpace : (Space.unit symbol).WellFormed :=
    .vector _ (List.pairwise_singleton _ _) (List.forall_mem_singleton.2 .integer)
  have found : (Space.unit symbol).find? symbol = some .integer := by
    simp [Space.find?, Space.unit]
  exact single_wellFormed ofSpace found (.integer 1 (by decide)) BEq.rfl rfl

/-- A wider space finds what a narrower one finds, up to marks. -/
theorem find?_of_covers {wide narrow : Space} (covered : wide.covers narrow = true) {symbol : Symbol}
    {type : ValueType} (found : narrow.find? symbol = some type) :
    ∃ other, wide.find? symbol = some other ∧ other == type := by
  obtain ⟨key, member, same⟩ := Symbol.mem_of_lookup found
  have present := List.all_eq_true.1 covered (key, type) member
  rw [Space.find?, ← Symbol.lookup_congr same] at present
  rw [Space.find?]
  split at present
  · next other reached => exact ⟨other, reached, present⟩
  · cases present

theorem embed?_wellFormed {vector wide : SparseVector} {target : Space}
    (formed : (Value.vector vector).WellFormed) (ofTarget : target.WellFormed)
    (embedded : vector.embed? target = .ok wide) :
    (Value.vector wide).WellFormed ∧ wide.space = target := by
  rcases formed with _ | _ | _ | ⟨space, components, ofSpace, ascending, kept, typed, nonzero⟩
  simp only [embed?] at embedded
  split at embedded
  · next covered =>
      cases embedded
      refine ⟨.vector target components ofTarget ascending kept ?_ nonzero, rfl⟩
      intro component member
      obtain ⟨type, present, agrees⟩ := typed component member
      obtain ⟨other, reached, same⟩ := find?_of_covers covered present
      exact ⟨other, reached, BEq.trans same agrees⟩
  · cases embedded

end SparseVector

end DiceOdds
