import DiceOdds.Proofs.Conversion

/-
This file shows that the join of two spaces is the least space that covers both, and that only
spaces with equal types in their common dimensions have one. All of it comes from what a look-up
finds in a join.
-/

namespace DiceOdds

namespace Space

/-- A space finds each of its dimensions, and covers another space that finds no more than it. -/
theorem covers_iff {wide narrow : Space} (formed : narrow.WellFormed) :
    wide.covers narrow = true ↔ ∀ symbol type, narrow.find? symbol = some type →
      ∃ other, wide.find? symbol = some other ∧ other == type := by
  constructor
  · intro covered symbol type found
    exact SparseVector.find?_of_covers covered found
  · intro finds
    apply List.all_eq_true.2
    intro dimension member
    have own : narrow.find? dimension.1 = some dimension.2 :=
      Symbol.lookup_of_mem formed.ascending member BEq.rfl
    obtain ⟨other, found, same⟩ := finds dimension.1 dimension.2 own
    rw [found]
    exact same

theorem covers_self {space : Space} (formed : space.WellFormed) : space.covers space = true :=
  (covers_iff formed).2 fun _ type found => ⟨type, found, BEq.rfl⟩

theorem covers_trans {wide middle narrow : Space} (outer : wide.covers middle = true)
    (inner : middle.covers narrow = true) : wide.covers narrow = true := by
  apply List.all_eq_true.2
  intro dimension member
  have present := List.all_eq_true.1 inner dimension member
  split at present
  · next type found =>
      obtain ⟨other, reached, same⟩ := SparseVector.find?_of_covers outer found
      rw [reached]
      exact BEq.trans same present
  · cases present

/-- A covered dimension has an equal dimension in the wide space. -/
theorem exists_dimension_of_covers {wide narrow : Space} (covered : wide.covers narrow = true)
    {dimension : Symbol × ValueType} (member : dimension ∈ narrow.dimensions) :
    ∃ other ∈ wide.dimensions, dimension.1 == other.1 ∧ dimension.2 == other.2 := by
  have present := List.all_eq_true.1 covered dimension member
  split at present
  · next type found =>
      obtain ⟨key, inside, same⟩ := Symbol.mem_of_lookup found
      exact ⟨(key, type), inside, same, BEq.symm present⟩
  · cases present

/-- Spaces that cover each other are equal. -/
theorem covers_antisymm {first second : Space} (ofFirst : first.WellFormed)
    (ofSecond : second.WellFormed) (above : first.covers second = true)
    (below : second.covers first = true) : first == second := by
  apply beq_iff.2
  apply forall₂_of_increasing (compareOn Prod.fst)
  · intro one other same
    exact Symbol.compare_eq_iff.2 (Symbol.beq_iff.1 same.1)
  · exact ofFirst.ascending
  · exact ofSecond.ascending
  · intro one member
    exact exists_dimension_of_covers below member
  · intro other member
    obtain ⟨one, inside, name, type⟩ := exists_dimension_of_covers above member
    exact ⟨one, inside, BEq.symm name, BEq.symm type⟩

/-- A new dimension is found behind the old ones. -/
theorem find?_extend? {space next : Space} {dimension : Symbol} {type : ValueType}
    (extended : space.extend? dimension type = .ok next) (symbol : Symbol) :
    next.find? symbol =
      (space.find? symbol).or (if symbol == dimension then some type else none) := by
  rw [extend?] at extended
  split at extended
  · next absent =>
      cases extended
      rw [find?, Symbol.lookup_put, ← find?]
      cases same : symbol == dimension with
      | true => rw [find?_congr same, absent]; rfl
      | false => exact (Option.or_none).symm
  · next present found =>
      split at extended
      · cases extended
        cases same : symbol == dimension with
        | true => rw [find?_congr same, found]; rfl
        | false => exact (Option.or_none).symm
      · cases extended

theorem find?_extendAll? {dimensions : List (Symbol × ValueType)} {space wide : Space}
    (extended : space.extendAll? dimensions = .ok wide) (symbol : Symbol) :
    wide.find? symbol = (space.find? symbol).or (dimensions.lookup symbol) := by
  induction dimensions generalizing space with
  | nil =>
      cases extended
      exact (Option.or_none).symm
  | cons dimension rest known =>
      obtain ⟨next, step, others⟩ := extendAll?_cons_eq_ok extended
      rw [known others, find?_extend? step, Option.or_assoc, List.lookup_cons]
      cases symbol == dimension.1 <;> rfl

/-- An extended space keeps the types of all dimensions that were added. -/
theorem find?_of_mem_extendAll? {dimensions : List (Symbol × ValueType)} {space wide : Space}
    (extended : space.extendAll? dimensions = .ok wide) {dimension : Symbol × ValueType}
    (member : dimension ∈ dimensions) :
    ∃ type, wide.find? dimension.1 = some type ∧ type == dimension.2 := by
  induction dimensions generalizing space with
  | nil => cases member
  | cons head rest known =>
      obtain ⟨next, step, others⟩ := extendAll?_cons_eq_ok extended
      rcases List.mem_cons.1 member with rfl | later
      · rw [find?_extendAll? others, find?_extend? step, BEq.rfl]
        rw [extend?] at step
        split at step
        · next absent => exact ⟨dimension.2, by simp [absent], BEq.rfl⟩
        · next present found =>
            split at step
            · next same => exact ⟨present, by simp [found], same⟩
            · cases step
      · exact known others later

/-- Two spaces are compatible when they give equal types to their common dimensions. -/
def Compatible (first second : Space) : Prop :=
  ∀ symbol one other, first.find? symbol = some one → second.find? symbol = some other → one == other

/-- Spaces below a common space are compatible. -/
theorem compatible_of_covers {wide first second : Space} (ofFirst : wide.covers first = true)
    (ofSecond : wide.covers second = true) : first.Compatible second := by
  intro symbol one other foundFirst foundSecond
  obtain ⟨type, reached, same⟩ := SparseVector.find?_of_covers ofFirst foundFirst
  obtain ⟨again, alsoReached, alsoSame⟩ := SparseVector.find?_of_covers ofSecond foundSecond
  obtain rfl := Option.some.inj (reached.symm.trans alsoReached)
  exact BEq.trans (BEq.symm same) alsoSame

/-- Distinct dimensions can be added to a space that has none of them with another type. -/
theorem exists_extendAll? {dimensions : List (Symbol × ValueType)} {space : Space}
    (distinct : Symbol.Distinct dimensions)
    (fits : ∀ dimension ∈ dimensions, ∀ type, space.find? dimension.1 = some type →
      type == dimension.2) :
    ∃ wide, space.extendAll? dimensions = .ok wide := by
  induction dimensions generalizing space with
  | nil => exact ⟨space, rfl⟩
  | cons dimension rest known =>
      obtain ⟨apart, later⟩ := List.pairwise_cons.1 distinct
      obtain ⟨fitsFirst, fitsRest⟩ := List.forall_mem_cons.1 fits
      obtain ⟨next, step⟩ : ∃ next, space.extend? dimension.1 dimension.2 = .ok next := by
        rw [extend?]
        cases found : space.find? dimension.1 with
        | none => exact ⟨_, rfl⟩
        | some type => exact ⟨space, if_pos (fitsFirst type found)⟩
      have unchanged : ∀ other ∈ rest, ∀ type, next.find? other.1 = some type →
          type == other.2 := by
        intro other member type found
        rw [find?_extend? step, BEq.comm, apart other member] at found
        exact fitsRest other member type (by simpa using found)
      obtain ⟨wide, made⟩ := known later unchanged
      refine ⟨wide, ?_⟩
      rw [extendAll?, List.foldlM_cons, step]
      exact made

section Join

variable {first second space : Space} (ofFirst : first.WellFormed) (ofSecond : second.WellFormed)
include ofFirst ofSecond

/-- A join covers both spaces, and every space that covers both of them covers the join. -/
theorem join?_covers (joined : first.join? second = .ok space) :
    space.covers first = true ∧ space.covers second = true ∧
      ∀ wide : Space, wide.covers first = true → wide.covers second = true →
        wide.covers space = true := by
  have finds := find?_extendAll? joined
  refine ⟨(covers_iff ofFirst).2 fun symbol type found => ?_, ?_, fun wide above also => ?_⟩
  · exact ⟨type, by rw [finds, found]; rfl, BEq.rfl⟩
  · apply List.all_eq_true.2
    intro dimension member
    obtain ⟨type, found, same⟩ := find?_of_mem_extendAll? joined member
    rw [found]
    exact same
  · refine (covers_iff (extendAll?_wellFormed ofFirst ofSecond.inner joined)).2 ?_
    intro symbol type found
    rw [finds, Option.or_eq_some_iff] at found
    rcases found with inFirst | ⟨-, inSecond⟩
    · exact SparseVector.find?_of_covers above inFirst
    · exact SparseVector.find?_of_covers also inSecond

/-- Two spaces have a join when they are compatible. -/
theorem exists_join?_iff : (∃ space, first.join? second = .ok space) ↔ first.Compatible second := by
  constructor
  · rintro ⟨space, joined⟩
    obtain ⟨above, also, -⟩ := join?_covers ofFirst ofSecond joined
    exact compatible_of_covers above also
  · intro compatible
    apply exists_extendAll? ofSecond.ascending.distinct
    intro dimension member type found
    exact compatible dimension.1 type dimension.2 found
      (Symbol.lookup_of_mem ofSecond.ascending member BEq.rfl)

end Join

end Space

end DiceOdds
