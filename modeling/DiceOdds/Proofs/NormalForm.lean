import DiceOdds.Proofs.OutcomeOrder

/-
This file shows that distributions are the normal forms of lists of events. What a list of events says
is which values occur in it and how much they weigh, and nothing else decides about its normal form.
-/

namespace DiceOdds

namespace Event

variable {A : Type} [Ord A]

/-- Two lists of events weigh the same when equal values occur in them and have equal masses. -/
structure WeighSame (first second : List (Event A)) : Prop where
  occurs : ∀ value, (∃ event ∈ first, compare event.value value = .eq) ↔
    ∃ event ∈ second, compare event.value value = .eq
  mass : ∀ value, mass first value = mass second value

namespace WeighSame

variable {first second third : List (Event A)}

theorem symm (same : WeighSame first second) : WeighSame second first :=
  ⟨fun value => (same.occurs value).symm, fun value => (same.mass value).symm⟩

theorem trans (before : WeighSame first second) (after : WeighSame second third) :
    WeighSame first third :=
  ⟨fun value => (before.occurs value).trans (after.occurs value),
    fun value => (before.mass value).trans (after.mass value)⟩

end WeighSame

/-- Events are gathered by moving them and by merging two of them that have equal values. -/
inductive Gathers : List (Event A) → List (Event A) → Prop where
  | move {first second : List (Event A)} (moved : first.Perm second) : Gathers first second
  | merge {first second : Event A} {rest : List (Event A)}
      (equal : compare first.value second.value = .eq) :
      Gathers (first :: second :: rest)
        (⟨first.value, first.probability + second.probability⟩ :: rest)
  | trans {first second third : List (Event A)} (before : Gathers first second)
      (after : Gathers second third) : Gathers first third

variable [Std.TransOrd A]

/-- Moving and merging events keeps their weights. -/
theorem Gathers.weighSame {first second : List (Event A)} (gathers : Gathers first second) :
    WeighSame first second := by
  induction gathers with
  | move moved =>
      refine ⟨fun value => by simp only [moved.mem_iff], fun value => ?_⟩
      rw [mass_eq_expectation, mass_eq_expectation, expectation_perm moved]
  | @merge first second rest equal =>
      refine ⟨fun value => ?_, fun value => ?_⟩
      · simp only [List.exists_mem_cons_iff, ← Std.TransCmp.congr_left equal]
        rw [← or_assoc, or_self]
      · simp only [mass_cons, ← Std.TransCmp.congr_left equal]
        split <;> ring
  | trans before after knownBefore knownAfter => exact knownBefore.trans knownAfter

end Event

namespace Distribution

variable {A : Type} [Ord A]

/-- Two distributions match when they list equal values with the same probabilities. -/
def Matches (first second : Distribution A) : Prop :=
  List.Forall₂ (fun left right => compare left.value right.value = .eq ∧
    left.probability = right.probability) first.events second.events

theorem Matches.eq [Std.LawfulEqOrd A] {first second : Distribution A}
    (same : first.Matches second) : first = second := by
  have events : List.Forall₂ Eq first.events second.events := same.imp fun left right related => by
    cases left
    cases right
    exact congrArg₂ Event.mk (Std.LawfulEqOrd.eq_of_compare related.1) related.2
  cases first
  cases second
  exact congrArg Distribution.mk (List.forall₂_eq_eq_eq ▸ events)

variable [Std.TransOrd A]

/-- Only the weights of ascending events decide about them. -/
theorem Ascending.matches {first second : Distribution A} (ofFirst : first.Ascending)
    (ofSecond : second.Ascending) (same : Event.WeighSame first.events second.events) :
    first.Matches second := by
  have weighs {event found : Event A} (member : event ∈ first.events)
      (inside : found ∈ second.events) (equal : compare event.value found.value = .eq) :
      event.probability = found.probability := by
    rw [← ofFirst.probability_eq member, ← ofSecond.probability_eq inside,
      ofFirst.probability_eq_mass, ofSecond.probability_eq_mass]
    exact (same.mass event.value).trans (Event.mass_congr _ equal)
  refine forall₂_of_increasing (compareOn Event.value) (fun one other related => related.1) ofFirst
    ofSecond (fun event member => ?_) fun found inside => ?_
  · obtain ⟨found, inside, equal⟩ :=
      (same.occurs event.value).1 ⟨event, member, Std.ReflCmp.compare_self⟩
    have related := Std.OrientedCmp.eq_symm equal
    exact ⟨found, inside, related, weighs member inside related⟩
  · obtain ⟨event, member, equal⟩ :=
      (same.occurs found.value).2 ⟨found, inside, Std.ReflCmp.compare_self⟩
    exact ⟨event, member, equal, weighs member inside equal⟩

/-- The normal form of events has their weights. -/
theorem ofEvents_weighSame (events : List (Event A)) :
    Event.WeighSame (ofEvents events).events events := by
  refine ⟨fun value => ⟨?_, ?_⟩, fun value => ?_⟩
  · rintro ⟨event, member, equal⟩
    obtain ⟨old, inside, same⟩ := mem_values_ofEvents member
    exact ⟨old, inside, same ▸ equal⟩
  · rintro ⟨event, member, equal⟩
    obtain ⟨found, inside, same⟩ := exists_mem_ofEvents member
    exact ⟨found, inside, Std.TransCmp.eq_trans (Std.OrientedCmp.eq_symm same) equal⟩
  · have respects : Respects fun other : A => if compare other value = .eq then (1 : Rat) else 0 :=
      fun first second same => by simp only [Std.TransCmp.congr_left same]
    rw [Event.mass_eq_expectation, expectation_ofEvents respects, ← Event.mass_eq_expectation]

theorem Matches.weighSame {first second : Distribution A} (same : first.Matches second) :
    Event.WeighSame first.events second.events := by
  obtain ⟨events⟩ := first
  obtain ⟨others⟩ := second
  change List.Forall₂ _ events others at same
  induction same with
  | nil => exact ⟨fun _ => Iff.rfl, fun _ => rfl⟩
  | cons related _ known =>
      refine ⟨fun value => ?_, fun value => ?_⟩
      · simp only [List.exists_mem_cons_iff, Std.TransCmp.congr_left related.1, known.occurs value]
      · simp only [Event.mass_cons, Std.TransCmp.congr_left related.1, related.2, known.mass value]

/-- Two lists of events have the same normal form exactly when they weigh the same. -/
theorem ofEvents_matches_iff {events others : List (Event A)} :
    (ofEvents events).Matches (ofEvents others) ↔ Event.WeighSame events others := by
  have normal := ofEvents_weighSame events
  have also := ofEvents_weighSame others
  constructor
  · intro same
    exact normal.symm.trans (same.weighSame.trans also)
  · intro same
    exact (ofEvents_ascending events).matches (ofEvents_ascending others)
      (normal.trans (same.trans also.symm))

/-- A distribution is its own normal form exactly when it is ascending. -/
theorem ascending_iff_ofEvents_eq {distribution : Distribution A} :
    distribution.Ascending ↔ ofEvents distribution.events = distribution := by
  constructor
  · exact ofEvents_of_ascending
  · intro same
    rw [← same]
    exact ofEvents_ascending distribution.events

/-- Distributions are built from a certain outcome, a die or events, and from other distributions. -/
inductive Built : {A : Type} → [Ord A] → Distribution A → Prop where
  | certain {A : Type} [Ord A] (value : A) : Built (certain value)
  | die {sides : Int} {die : Distribution Int} (rolled : die? sides = .ok die) : Built die
  | ofEvents {A : Type} [Ord A] (events : List (Event A)) : Built (ofEvents events)
  | map {A B : Type} [Ord A] [Ord B] {source : Distribution A} (built : Built source)
      (image : A → B) : Built (source.map image)
  | tryMap {A B E : Type} [Ord A] [Ord B] {source : Distribution A} {found : Distribution B}
      {image : A → Except E B} (built : Built source) (mapped : source.tryMap image = .ok found) :
      Built found
  | join {A B C : Type} [Ord A] [Ord B] [Ord C] {left : Distribution A} {right : Distribution B}
      (ofLeft : Built left) (ofRight : Built right) (image : A → B → C) :
      Built (left.join right image)
  | tryJoin {A B C E : Type} [Ord A] [Ord B] [Ord C] {left : Distribution A}
      {right : Distribution B} {found : Distribution C} {image : A → B → Except E C}
      (ofLeft : Built left) (ofRight : Built right) (joined : left.tryJoin right image = .ok found) :
      Built found
  | joinAll {A : Type} [Ord A] {all : List (Distribution A)} {found : Distribution A}
      {image : A → A → A} (built : ∀ one ∈ all, Built one) (joined : joinAll all image = .ok found) :
      Built found

/-- Joining goes on with an ascending distribution. -/
theorem foldl_join_ascending {first : Distribution A} (ascending : first.Ascending)
    (rest : List (Distribution A)) (image : A → A → A) :
    (rest.foldl (fun drawn next => drawn.join next image) first).Ascending := by
  induction rest generalizing first with
  | nil => exact ascending
  | cons next rest known => exact known (ofEvents_ascending _)

/-- What is built is ascending, whatever it is built from. -/
theorem Built.ascending {A : Type} [Ord A] [ordered : Std.TransOrd A] {distribution : Distribution A}
    (built : Built distribution) : distribution.Ascending := by
  -- What a distribution is built from matters for the first of a joined list only, which may be alone.
  induction built generalizing ordered with
  | certain value => exact List.pairwise_singleton _ _
  | die rolled => exact die?_ascending rolled
  | ofEvents events => exact ofEvents_ascending events
  | map built image => exact ofEvents_ascending _
  | @tryMap A B E _ _ source found image built mapped =>
      obtain ⟨events, -, made⟩ := Except.bind_eq_ok mapped
      obtain rfl := Except.ok.inj made
      exact ofEvents_ascending events
  | join ofLeft ofRight image => exact ofEvents_ascending _
  | tryJoin ofLeft ofRight joined =>
      obtain ⟨events, -, made⟩ := Except.bind_eq_ok joined
      obtain rfl := Except.ok.inj made
      exact ofEvents_ascending events
  | @joinAll A _ all found image built joined known =>
      cases all with
      | nil => cases joined
      | cons first rest =>
          obtain rfl := Except.ok.inj joined
          exact foldl_join_ascending (known first List.mem_cons_self) rest image

/-- Distributions are the normal forms of lists of events. The outcomes strictly increase and are the
values that occur in the list, without probability too. A look-up finds the sum of the probabilities
that are paired with a value, and their total is kept. Lists have the same normal form exactly when they
weigh the same, so moving events and merging equal ones changes nothing. A distribution is the normal
form of its own events exactly when it is ascending, which holds for all that can be built. -/
theorem ofEvents_normal_form (events : List (Event A)) :
    (ofEvents events).Ascending ∧
      (∀ outcome ∈ (ofEvents events).values, ∃ event ∈ events, event.value = outcome) ∧
      (∀ event ∈ events, ∃ outcome ∈ (ofEvents events).values,
        compare event.value outcome = .eq) ∧
      (∀ value,
        let paired := events.filter fun event => compare event.value value == .eq
        (ofEvents events).probability value = (paired.map Event.probability).sum ∧
          Event.mass (ofEvents events).events value = (paired.map Event.probability).sum) ∧
      (ofEvents events).total = (events.map Event.probability).sum ∧
      (∀ others, (ofEvents events).Matches (ofEvents others) ↔ Event.WeighSame events others) ∧
      (∀ others, Event.Gathers events others → (ofEvents events).Matches (ofEvents others)) ∧
      (∀ distribution : Distribution A,
        distribution.Ascending ↔ ofEvents distribution.events = distribution) ∧
      ∀ distribution : Distribution A, Built distribution →
        ofEvents distribution.events = distribution := by
  have ascending := ofEvents_ascending events
  refine ⟨ascending, ?_, ?_, fun value => ?_, ?_, fun others => ofEvents_matches_iff,
    fun others gathers => ofEvents_matches_iff.2 gathers.weighSame,
    fun distribution => ascending_iff_ofEvents_eq,
    fun distribution built => ascending_iff_ofEvents_eq.1 built.ascending⟩
  · intro outcome member
    obtain ⟨found, inside, rfl⟩ := List.mem_map.1 member
    obtain ⟨event, old, same⟩ := mem_values_ofEvents inside
    exact ⟨event, old, same.symm⟩
  · intro event member
    obtain ⟨found, inside, same⟩ := exists_mem_ofEvents member
    exact ⟨found.value, List.mem_map_of_mem inside, same⟩
  · have weight := (ofEvents_weighSame events).mass value
    rw [Event.mass_eq_sum events] at weight
    exact ⟨(ascending.probability_eq_mass value).trans weight, weight⟩
  · have total : Respects fun _ : A => (1 : Rat) := fun _ _ _ => rfl
    rw [total_eq_expectation, expectation_ofEvents total, Event.expectation_one]

/-- Vectors that differ in marks only are one outcome, whether they are merged before or not. -/
theorem ofEvents_normal_form_vectors :
    let count (mark : Mark) (number : Int) : Value :=
      .vector ⟨.unit ⟨"b", mark⟩, [(⟨"b", mark⟩, .integer number)]⟩
    let events : List (Event Value) :=
      [⟨count .tick 2, 1 / 4⟩, ⟨count .tick 1, 1 / 4⟩, ⟨count .colon 2, 1 / 2⟩]
    let merged : List (Event Value) := [⟨count .colon 2, 1 / 2 + 1 / 4⟩, ⟨count .tick 1, 1 / 4⟩]
    Std.TransOrd Value ∧ Event.Gathers events merged ∧
      (ofEvents events).Matches (ofEvents merged) ∧
      (ofEvents events).probability (count .tick 2) = 3 / 4 ∧
      (ofEvents events).probability (count .tick 3) = 0 ∧ (ofEvents events).total = 1 ∧
      ofEvents (ofEvents events).events = ofEvents events := by
  intro count events merged
  obtain ⟨-, -, -, weights, total, -, gathered, -, normal⟩ := ofEvents_normal_form events
  have moved : events.Perm
      [⟨count .colon 2, 1 / 2⟩, ⟨count .tick 2, 1 / 4⟩, ⟨count .tick 1, 1 / 4⟩] :=
    @List.perm_append_comm _ [_, _] [_]
  have gathers : Event.Gathers events merged := (Event.Gathers.move moved).trans (.merge rfl)
  refine ⟨inferInstance, gathers, gathered merged gathers, (weights _).1.trans ?_,
    (weights _).1.trans ?_, total.trans ?_, normal _ (.ofEvents events)⟩
  · change [(1 : Rat) / 4, 1 / 2].sum = 3 / 4
    norm_num
  · rfl
  · norm_num [events]

end Distribution

namespace IsLaw

variable {A Roll : Type} [Ord A] [Fintype Roll] {first second : Distribution A} {one other : Roll → A}

/-- Quantities that are equal on every roll have matching laws. -/
theorem matches_of_equal [Std.TransOrd A] (ofFirst : IsLaw first one) (ofSecond : IsLaw second other)
    (same : ∀ roll, compare (one roll) (other roll) = .eq) : first.Matches second := by
  refine ofFirst.ascending.matches ofSecond.ascending ⟨fun value => ?_, fun value => ?_⟩
  · simp only [ofFirst.occurs_iff, ofSecond.occurs_iff, Std.TransCmp.congr_left (same _)]
  · simp only [ofFirst.mass_eq, ofSecond.mass_eq, Std.TransCmp.congr_left (same _)]

end IsLaw

end DiceOdds
