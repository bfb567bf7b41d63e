import DiceOdds.Proofs.SpaceJoin

/-
This file shows that the join of a list of spaces is their least upper bound, and that they have one
when they are compatible pair by pair. What covers a join covers the spaces in the list, so neither
their order nor their grouping can change it.
-/

namespace DiceOdds

namespace Space

/-- A space bounds a list when it covers every space in it. -/
def Bounds (wide : Space) (spaces : List Space) : Prop :=
  ∀ space ∈ spaces, wide.covers space = true

theorem bounds_cons {wide space : Space} {rest : List Space} :
    wide.Bounds (space :: rest) ↔ wide.covers space = true ∧ wide.Bounds rest :=
  List.forall_mem_cons

theorem bounds_append {wide : Space} {first second : List Space} :
    wide.Bounds (first ++ second) ↔ wide.Bounds first ∧ wide.Bounds second :=
  List.forall_mem_append

/-- Two lists hold the same spaces when every space of one of them equals one of the other. -/
def SameSpaces (spaces others : List Space) : Prop :=
  (∀ space ∈ spaces, ∃ other ∈ others, space == other) ∧
    ∀ other ∈ others, ∃ space ∈ spaces, other == space

theorem SameSpaces.symm {spaces others : List Space} (same : SameSpaces spaces others) :
    SameSpaces others spaces :=
  ⟨same.2, same.1⟩

/-- A list holds the same spaces as every other list with its members. -/
theorem SameSpaces.of_mem_iff {spaces others : List Space}
    (same : ∀ space, space ∈ spaces ↔ space ∈ others) : SameSpaces spaces others :=
  ⟨fun space member => ⟨space, (same space).1 member, BEq.rfl⟩,
    fun other member => ⟨other, (same other).2 member, BEq.rfl⟩⟩

theorem Bounds.of_sameSpaces {wide : Space} {spaces others : List Space}
    (bounds : wide.Bounds spaces) (same : SameSpaces spaces others) : wide.Bounds others := by
  intro other member
  obtain ⟨space, inside, equal⟩ := same.2 other member
  rw [covers_congr equal]
  exact bounds space inside

/-- A fault reports a dimension that two spaces have with different types. -/
def Clashes (first second : Space) (fault : Fault) : Prop :=
  ∃ dimension one other, fault = .conflictingDimension dimension one other ∧
    first.find? dimension = some one ∧ second.find? dimension = some other ∧ ¬one == other

theorem Compatible.not_clashes {first second : Space} (compatible : first.Compatible second)
    (fault : Fault) : ¬first.Clashes second fault := by
  intro ⟨dimension, one, other, _, ofFirst, ofSecond, apart⟩
  exact apart (compatible dimension one other ofFirst ofSecond)

/-- The first clash in a list is that of a space with one of the compatible spaces before it. -/
def FirstClash (spaces : List Space) (fault : Fault) : Prop :=
  ∃ before space after, spaces = before ++ space :: after ∧ before.Pairwise Compatible ∧
    ∃ earlier ∈ before, earlier.Clashes space fault

/-- Spaces with a clash are not compatible pair by pair. -/
theorem FirstClash.not_pairwise {spaces : List Space} {fault : Fault}
    (clash : FirstClash spaces fault) : ¬spaces.Pairwise Compatible := by
  intro compatible
  obtain ⟨before, space, after, rfl, -, earlier, member, clashes⟩ := clash
  have between := (List.pairwise_append.1 compatible).2.2 earlier member space List.mem_cons_self
  exact between.not_clashes fault clashes

/-- Spaces below a common space are compatible pair by pair. -/
theorem Bounds.pairwise {wide : Space} {spaces : List Space} (bounds : wide.Bounds spaces) :
    spaces.Pairwise Compatible := by
  apply List.pairwise_of_forall_mem_list
  intro first ofFirst second ofSecond
  exact compatible_of_covers (bounds first ofFirst) (bounds second ofSecond)

section Join

variable {first second space : Space}

/-- A join covers what both spaces together bound. -/
theorem covers_join? (ofFirst : first.WellFormed) (ofSecond : second.WellFormed)
    (joined : first.join? second = .ok space) {wide : Space} :
    wide.covers space = true ↔ wide.covers first = true ∧ wide.covers second = true := by
  obtain ⟨above, also, least⟩ := join?_covers ofFirst ofSecond joined
  constructor
  · intro covered
    exact ⟨covers_trans covered above, covers_trans covered also⟩
  · intro ⟨onFirst, onSecond⟩
    exact least wide onFirst onSecond

/-- A join fails at a dimension that both spaces have with different types. -/
theorem clashes_of_join? (ofSecond : second.WellFormed) {fault : Fault}
    (failed : first.join? second = .error fault) : first.Clashes second fault := by
  obtain ⟨before, dimension, after, reached, split, extended, stops⟩ :=
    Except.foldlM_eq_error failed
  have own : second.find? dimension.1 = some dimension.2 :=
    Symbol.lookup_of_mem ofSecond.ascending (by rw [split]; simp) BEq.rfl
  -- The dimensions before this one have other names.
  have absent : before.lookup dimension.1 = none := by
    apply Symbol.lookup_of_absent
    intro entry member
    have ascending := ofSecond.ascending
    rw [Symbol.Ascending, split, List.pairwise_append] at ascending
    rw [BEq.comm]
    exact Symbol.not_beq_of_lt (ascending.2.2 entry member dimension List.mem_cons_self)
  have finds : reached.find? dimension.1 = first.find? dimension.1 := by
    rw [find?_extendAll? extended, absent, Option.or_none]
  simp only [extend?] at stops
  split at stops
  · cases stops
  · next present found =>
      split at stops
      · cases stops
      · next apart =>
          cases stops
          exact ⟨dimension.1, present, dimension.2, rfl, finds ▸ found, own, apart⟩

end Join

/-- The join of a list covers what bounds the list, and it has every dimension as the first space
with this dimension has it. -/
structure IsJoin (spaces : List Space) (joined : Space) : Prop where
  wellFormed : joined.WellFormed
  covers_iff : ∀ wide : Space, wide.covers joined = true ↔ wide.Bounds spaces
  find?_eq : ∀ symbol, joined.find? symbol = spaces.findSome? fun space => space.find? symbol

namespace IsJoin

variable {spaces others : List Space} {joined other : Space}

theorem single {space : Space} (formed : space.WellFormed) : IsJoin [space] space where
  wellFormed := formed
  covers_iff := by simp [Bounds]
  find?_eq := by simp

/-- One more space is joined to the join of the spaces before it. -/
theorem concat {space next : Space} (join : IsJoin spaces joined) (formed : space.WellFormed)
    (made : joined.join? space = .ok next) : IsJoin (spaces ++ [space]) next where
  wellFormed := extendAll?_wellFormed join.wellFormed formed.inner made
  covers_iff := by
    intro wide
    rw [covers_join? join.wellFormed formed made, join.covers_iff, bounds_append]
    simp [Bounds]
  find?_eq := by
    intro symbol
    rw [find?_extendAll? made, join.find?_eq, List.findSome?_append, List.findSome?_singleton]
    rfl

/-- A run over further spaces makes the join of all of them. -/
theorem foldlM (join : IsJoin spaces joined) (formed : ∀ space ∈ others, space.WellFormed)
    (made : others.foldlM join? joined = .ok other) : IsJoin (spaces ++ others) other := by
  induction others generalizing spaces joined with
  | nil =>
      cases made
      rwa [List.append_nil]
  | cons space rest known =>
      obtain ⟨ofSpace, later⟩ := List.forall_mem_cons.1 formed
      rw [List.foldlM_cons] at made
      obtain ⟨next, step, ran⟩ := Except.bind_eq_ok made
      rw [List.append_cons]
      exact known (join.concat ofSpace step) later ran

theorem bounds (join : IsJoin spaces joined) : joined.Bounds spaces :=
  (join.covers_iff joined).1 (covers_self join.wellFormed)

/-- Lists with the same bounds have equal joins. -/
theorem beq (join : IsJoin spaces joined) (also : IsJoin others other)
    (same : ∀ wide : Space, wide.Bounds spaces ↔ wide.Bounds others) : joined == other := by
  apply covers_antisymm join.wellFormed also.wellFormed
  · rw [also.covers_iff, ← same]
    exact join.bounds
  · rw [join.covers_iff, same]
    exact also.bounds

end IsJoin

section List

variable {spaces others : List Space} (formed : ∀ space ∈ spaces, space.WellFormed)
include formed

theorem isJoin_of_joinAll? {joined : Space} (made : joinAll? spaces = .ok joined) :
    IsJoin spaces joined := by
  cases spaces with
  | nil => cases made
  | cons first rest =>
      obtain ⟨ofFirst, later⟩ := List.forall_mem_cons.1 formed
      exact (IsJoin.single ofFirst).foldlM later made

theorem firstClash_of_joinAll? (nonempty : spaces ≠ []) {fault : Fault}
    (failed : joinAll? spaces = .error fault) : FirstClash spaces fault := by
  cases spaces with
  | nil => exact absurd rfl nonempty
  | cons first rest =>
      obtain ⟨before, space, after, joined, rfl, made, stops⟩ := Except.foldlM_eq_error failed
      have ofBefore : ∀ earlier ∈ first :: before, earlier.WellFormed := by
        intro earlier member
        apply formed
        rw [← List.cons_append]
        exact List.mem_append_left _ member
      have ofSpace : space.WellFormed := formed space (by simp)
      have join : IsJoin (first :: before) joined := isJoin_of_joinAll? ofBefore made
      obtain ⟨dimension, one, other, reported, reached, found, apart⟩ :=
        clashes_of_join? ofSpace stops
      rw [join.find?_eq] at reached
      obtain ⟨earlier, member, own⟩ := List.exists_of_findSome?_eq_some reached
      exact ⟨first :: before, space, after, rfl, join.bounds.pairwise, earlier, member, dimension,
        one, other, reported, own, found, apart⟩

/-- Spaces have a join when they are compatible pair by pair. -/
theorem exists_joinAll?_iff (nonempty : spaces ≠ []) :
    (∃ joined, joinAll? spaces = .ok joined) ↔ spaces.Pairwise Compatible := by
  constructor
  · intro ⟨joined, made⟩
    exact (isJoin_of_joinAll? formed made).bounds.pairwise
  · intro compatible
    cases made : joinAll? spaces with
    | error fault =>
        exact absurd compatible (firstClash_of_joinAll? formed nonempty made).not_pairwise
    | ok joined => exact ⟨joined, rfl⟩

/-- Spaces have a join when some space bounds them. -/
theorem exists_joinAll?_iff_bounds (nonempty : spaces ≠ []) :
    (∃ joined, joinAll? spaces = .ok joined) ↔ ∃ wide : Space, wide.Bounds spaces := by
  constructor
  · intro ⟨joined, made⟩
    exact ⟨joined, (isJoin_of_joinAll? formed made).bounds⟩
  · intro ⟨wide, bounds⟩
    exact (exists_joinAll?_iff formed nonempty).2 bounds.pairwise

/-- Lists with the same bounds are joined alike. -/
theorem joinAll?_agree (nonempty : spaces ≠ []) (alsoFormed : ∀ other ∈ others, other.WellFormed)
    (alsoNonempty : others ≠ []) (same : ∀ wide : Space, wide.Bounds spaces ↔ wide.Bounds others) :
    Agree (fun _ _ => True) (fun one other => one == other) (joinAll? spaces)
      (joinAll? others) := by
  apply Agree.of_exists_iff
  · rw [exists_joinAll?_iff_bounds formed nonempty,
      exists_joinAll?_iff_bounds alsoFormed alsoNonempty]
    exact exists_congr same
  · intro one other made alsoMade
    exact (isJoin_of_joinAll? formed made).beq (isJoin_of_joinAll? alsoFormed alsoMade) same

/-- Equal spaces are joined alike in every order and number. -/
theorem joinAll?_sameSpaces (nonempty : spaces ≠ []) (same : SameSpaces spaces others) :
    Agree (fun _ _ => True) (fun one other => one == other) (joinAll? spaces)
      (joinAll? others) := by
  have alsoFormed : ∀ other ∈ others, other.WellFormed := by
    intro other member
    obtain ⟨space, inside, equal⟩ := same.2 other member
    have types : ValueType.vector space == .vector other :=
      ValueType.vector_beq.trans (BEq.symm equal)
    exact (formed space inside).congr types
  have alsoNonempty : others ≠ [] := by
    intro empty
    obtain ⟨space, member⟩ := List.exists_mem_of_ne_nil spaces nonempty
    obtain ⟨other, absent, -⟩ := same.1 space member
    rw [empty] at absent
    cases absent
  apply joinAll?_agree formed nonempty alsoFormed alsoNonempty
  intro wide
  exact ⟨fun bounds => bounds.of_sameSpaces same, fun bounds => bounds.of_sameSpaces same.symm⟩

/-- A part of a list can be joined first. -/
theorem joinAll?_part {before part after : List Space} (nonempty : part ≠ [])
    (split : spaces = before ++ part ++ after) :
    Agree (fun _ _ => True) (fun one other => one == other) (joinAll? spaces)
      (do joinAll? (before ++ (← joinAll? part) :: after)) := by
  subst split
  have ofPart : ∀ space ∈ part, space.WellFormed := by
    intro space member
    exact formed space (by simp [member])
  cases made : joinAll? part with
  | error fault =>
      cases whole : joinAll? (before ++ part ++ after) with
      | error other => exact .error trivial
      | ok joined =>
          have bounds := (isJoin_of_joinAll? formed whole).bounds
          rw [bounds_append, bounds_append] at bounds
          obtain ⟨space, also⟩ := (exists_joinAll?_iff_bounds ofPart nonempty).2 ⟨joined, bounds.1.2⟩
          rw [made] at also
          cases also
  | ok space =>
      have join := isJoin_of_joinAll? ofPart made
      apply joinAll?_agree formed
      · simp [nonempty]
      · intro other member
        simp only [List.mem_append, List.mem_cons] at member
        rcases member with early | rfl | late
        · exact formed other (by simp [early])
        · exact join.wellFormed
        · exact formed other (by simp [late])
      · simp
      · intro wide
        rw [bounds_append, bounds_append, bounds_append, bounds_cons, join.covers_iff, and_assoc]

end List

/-- Spaces cover each other exactly when they are equal. -/
theorem covers_both_iff {first second : Space} (ofFirst : first.WellFormed)
    (ofSecond : second.WellFormed) :
    first.covers second = true ∧ second.covers first = true ↔ first == second := by
  constructor
  · intro ⟨above, below⟩
    exact covers_antisymm ofFirst ofSecond above below
  · intro same
    rw [← covers_congr same first, covers_congr same second]
    exact ⟨covers_self ofFirst, covers_self ofSecond⟩

/-- The join of spaces is their least upper bound. They have one exactly when no dimension has
different types in two of them, and otherwise the first clash is reported. The join does not depend on
the order of the spaces, on their repetition or on the parts that are joined first. -/
theorem joinAll?_leastUpperBound {spaces : List Space} (nonempty : spaces ≠ [])
    (formed : ∀ space ∈ spaces, space.WellFormed) :
    ((∃ joined, joinAll? spaces = .ok joined) ↔ spaces.Pairwise Compatible) ∧
    (∀ joined, joinAll? spaces = .ok joined → joined.WellFormed ∧ joined.Bounds spaces ∧
      ∀ wide : Space, wide.Bounds spaces → wide.covers joined = true) ∧
    (∀ fault, joinAll? spaces = .error fault → FirstClash spaces fault) ∧
    (∀ others, SameSpaces spaces others →
      Agree (fun _ _ => True) (fun one other => one == other) (joinAll? spaces)
        (joinAll? others)) ∧
    (∀ before part after, part ≠ [] → spaces = before ++ part ++ after →
      Agree (fun _ _ => True) (fun one other => one == other) (joinAll? spaces)
        (do joinAll? (before ++ (← joinAll? part) :: after))) ∧
    (∀ space : Space, space.WellFormed → space.covers space = true) ∧
    (∀ wide middle narrow : Space, wide.covers middle = true → middle.covers narrow = true →
      wide.covers narrow = true) ∧
    ∀ first second : Space, first.WellFormed → second.WellFormed →
      (first.covers second = true ∧ second.covers first = true ↔ first == second) := by
  have least (joined : Space) (made : joinAll? spaces = .ok joined) : joined.WellFormed ∧
      joined.Bounds spaces ∧ ∀ wide : Space, wide.Bounds spaces → wide.covers joined = true := by
    have join := isJoin_of_joinAll? formed made
    exact ⟨join.wellFormed, join.bounds, fun wide => (join.covers_iff wide).2⟩
  exact ⟨exists_joinAll?_iff formed nonempty, least,
    fun _ => firstClash_of_joinAll? formed nonempty,
    fun _ => joinAll?_sameSpaces formed nonempty,
    fun _ _ _ => joinAll?_part formed,
    fun _ => covers_self, fun _ _ _ => covers_trans, fun _ _ => covers_both_iff⟩

/-- Spaces with nested types are joined in any order, repeated, and two of them first. One that has a
dimension with another type clashes with the first of them that has it. -/
theorem joinAll?_leastUpperBound_nested :
    let inner : Space := .unit ⟨"x", .tick⟩
    let first : Space := ⟨[(⟨"a", .tick⟩, .integer), (⟨"v", .tick⟩, .vector inner)]⟩
    let second : Space := ⟨[(⟨"b", .tick⟩, .boolean), (⟨"v", .colon⟩, .vector inner)]⟩
    let third : Space := .unit ⟨"v", .tick⟩
    let joined : Space := ⟨[(⟨"a", .tick⟩, .integer), (⟨"b", .tick⟩, .boolean),
      (⟨"v", .tick⟩, .vector inner)]⟩
    (∃ one, joinAll? [first, second] = .ok one ∧ one == joined ∧ one.Bounds [first, second]) ∧
      (∃ one, joinAll? [second, first, second] = .ok one ∧ one == joined) ∧
      (∃ fault, joinAll? [second, first, third] = .error fault ∧
        FirstClash [second, first, third] fault) ∧
      ¬[second, first, third].Pairwise Compatible := by
  intro inner first second third joined
  have ofInner : (ValueType.vector inner).WellFormed := unit_wellFormed _
  have ofFirst : first.WellFormed := .vector _ (by unfold Symbol.Ascending; decide)
    (by simp [ofInner, ValueType.WellFormed.integer])
  have ofSecond : second.WellFormed := .vector _ (by unfold Symbol.Ascending; decide)
    (by simp [ofInner, ValueType.WellFormed.boolean])
  have ofThird : third.WellFormed := unit_wellFormed _
  obtain ⟨-, least, -, same, -⟩ := joinAll?_leastUpperBound
    (List.cons_ne_nil first [second]) (by simp [ofFirst, ofSecond])
  obtain ⟨exist, -, clash, -⟩ := joinAll?_leastUpperBound
    (List.cons_ne_nil second [first, third]) (by simp [ofFirst, ofSecond, ofThird])
  have made : joinAll? [first, second] = .ok joined := rfl
  have repeated : SameSpaces [first, second] [second, first, second] :=
    .of_mem_iff (by simp [or_comm])
  have alike := same _ repeated
  rw [made] at alike
  obtain ⟨one, alsoMade, equal⟩ := alike.symm.exists_of_ok
  have failed : joinAll? [second, first, third] =
      .error (.conflictingDimension ⟨"v", .tick⟩ (.vector inner) .integer) := rfl
  have firstClash := clash _ failed
  refine ⟨⟨joined, made, BEq.rfl, (least joined made).2.1⟩, ⟨one, alsoMade, BEq.symm equal⟩,
    ⟨_, failed, firstClash⟩, ?_⟩
  rw [← exist, failed]
  simp

end Space

end DiceOdds
