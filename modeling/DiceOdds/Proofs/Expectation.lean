import DiceOdds.Distribution
import DiceOdds.Proofs.Agreement

/-
This file follows the mean of a weight through sorting and merging. Merging loses no outcome, adds
none and keeps every mean whose weight respects the order.
-/

namespace DiceOdds

/-- This function respects an order when it does not tell equal outcomes apart. -/
def Respects {A B : Type} [Ord A] (weight : A → B) : Prop :=
  ∀ first second, compare first second = .eq → weight first = weight second

namespace Event

variable {A B : Type}

/-- This is the mean of a weight over a list of events. -/
def expectation (events : List (Event A)) (weight : A → Rat) : Rat :=
  (events.map fun event => event.probability * weight event.value).sum

@[simp] theorem expectation_nil (weight : A → Rat) : expectation [] weight = 0 :=
  rfl

@[simp] theorem expectation_cons (event : Event A) (events : List (Event A)) (weight : A → Rat) :
    expectation (event :: events) weight =
      event.probability * weight event.value + expectation events weight := by
  rw [expectation, List.map_cons, List.sum_cons, expectation]

@[simp] theorem expectation_append (first second : List (Event A)) (weight : A → Rat) :
    expectation (first ++ second) weight = expectation first weight + expectation second weight := by
  rw [expectation, List.map_append, List.sum_append, expectation, expectation]

theorem expectation_perm {first second : List (Event A)} (same : first.Perm second)
    (weight : A → Rat) : expectation first weight = expectation second weight :=
  (same.map _).sum_eq

/-- Weights that agree on all outcomes have the same mean. -/
theorem expectation_congr {events : List (Event A)} {first second : A → Rat}
    (same : ∀ event ∈ events, first event.value = second event.value) :
    expectation events first = expectation events second := by
  rw [expectation, List.map_congr_left fun event member => by rw [same event member]]
  rfl

/-- The mean of one is the sum of the probabilities. -/
theorem expectation_one (events : List (Event A)) :
    expectation events (fun _ => 1) = (events.map probability).sum := by
  simp only [expectation, mul_one]

/-- Two means can be taken in either order. -/
theorem expectation_swap (left : List (Event A)) (right : List (Event B)) (weight : A → B → Rat) :
    (expectation left fun first => expectation right fun second => weight first second) =
      expectation right fun second => expectation left fun first => weight first second := by
  have nothing : expectation right (fun _ => 0) = 0 := by simp [expectation]
  induction left with
  | nil => exact nothing.symm
  | cons event rest known =>
      simp only [expectation_cons, known]
      simp only [expectation, mul_add, List.sum_map_add, ← List.sum_map_mul_left, mul_left_comm]

/-- Replacing outcomes moves the weight to the images. -/
theorem expectation_map (events : List (Event A)) (image : A → B) (weight : B → Rat) :
    expectation (events.map fun event => ⟨image event.value, event.probability⟩) weight =
      expectation events fun value => weight (image value) := by
  rw [expectation, List.map_map]
  rfl

/-- Where every outcome has an image, the images have the means of the outcomes. -/
theorem expectation_of_map_eq {E : Type} {events : List (Event A)} {images : List (Event B)}
    {image : A → Except E B} {weight : B → Rat} {total : Except E B → Rat}
    (same : (events.map fun event => do
      return (⟨← image event.value, event.probability⟩ : Event B)) = images.map .ok)
    (agrees : ∀ value, total (.ok value) = weight value) :
    expectation images weight = expectation events fun value => total (image value) := by
  induction events generalizing images with
  | nil => cases images <;> simp at same ⊢
  | cons event rest known =>
      cases images with
      | nil => cases same
      | cons first others =>
          obtain ⟨head, tail⟩ := List.cons.inj same
          obtain ⟨value, imaged, made⟩ := Except.bind_eq_ok head
          cases made
          rw [expectation_cons, expectation_cons, known tail, imaged, agrees]

section Order

variable [Ord A]

/-- Absorbing an event adds its share to the mean of every weight that respects the order. -/
theorem expectation_absorb {weight : A → Rat} (respects : Respects weight) (event : Event A)
    (events : List (Event A)) :
    expectation (event.absorb events) weight =
      event.probability * weight event.value + expectation events weight := by
  cases events with
  | nil => rfl
  | cons next rest =>
      rw [absorb]
      cases related : compare event.value next.value with
      | eq =>
          dsimp only
          rw [expectation_cons, expectation_cons, respects _ _ related]
          ring
      | lt => rfl
      | gt => rfl

theorem expectation_foldr_absorb {weight : A → Rat} (respects : Respects weight)
    (events : List (Event A)) :
    expectation (events.foldr absorb []) weight = expectation events weight := by
  induction events with
  | nil => rfl
  | cons event rest known =>
      rw [List.foldr_cons, expectation_absorb respects, known, expectation_cons]

/-- Merging keeps some of the outcomes. -/
theorem mem_values_absorb {event other : Event A} {events : List (Event A)}
    (member : other ∈ event.absorb events) :
    other.value = event.value ∨ ∃ old ∈ events, other.value = old.value := by
  cases events with
  | nil => exact .inl (by rw [List.mem_singleton.1 member])
  | cons next rest =>
      rw [absorb] at member
      split at member
      · rcases List.mem_cons.1 member with rfl | later
        · exact .inl rfl
        · exact .inr ⟨other, List.mem_cons_of_mem _ later, rfl⟩
      · rcases List.mem_cons.1 member with rfl | later
        · exact .inl rfl
        · exact .inr ⟨other, later, rfl⟩

theorem mem_values_foldr_absorb {events : List (Event A)} {other : Event A}
    (member : other ∈ events.foldr absorb []) : ∃ event ∈ events, other.value = event.value := by
  induction events generalizing other with
  | nil => simp at member
  | cons event rest known =>
      rcases mem_values_absorb member with same | ⟨old, inside, same⟩
      · exact ⟨event, List.mem_cons_self, same⟩
      · obtain ⟨found, later, equal⟩ := known inside
        exact ⟨found, List.mem_cons_of_mem _ later, same.trans equal⟩

variable [Std.TransOrd A]

/-- Merging loses no outcome, up to equality. -/
theorem exists_mem_absorb (event : Event A) (events : List (Event A)) :
    (∃ found ∈ event.absorb events, compare event.value found.value = .eq) ∧
      ∀ old ∈ events, ∃ found ∈ event.absorb events, compare old.value found.value = .eq := by
  cases events with
  | nil => exact ⟨⟨event, List.mem_cons_self, Std.ReflCmp.compare_self⟩, by simp⟩
  | cons next rest =>
      rw [absorb]
      split
      · next related =>
          refine ⟨⟨_, List.mem_cons_self, Std.ReflCmp.compare_self⟩, fun old member => ?_⟩
          rcases List.mem_cons.1 member with rfl | later
          · exact ⟨_, List.mem_cons_self, Std.OrientedCmp.eq_symm related⟩
          · exact ⟨old, List.mem_cons_of_mem _ later, Std.ReflCmp.compare_self⟩
      · refine ⟨⟨_, List.mem_cons_self, Std.ReflCmp.compare_self⟩, fun old member => ?_⟩
        exact ⟨old, List.mem_cons_of_mem _ member, Std.ReflCmp.compare_self⟩

theorem exists_mem_foldr_absorb {events : List (Event A)} {event : Event A}
    (member : event ∈ events) :
    ∃ found ∈ events.foldr absorb [], compare event.value found.value = .eq := by
  induction events with
  | nil => simp at member
  | cons first rest known =>
      obtain ⟨own, others⟩ := exists_mem_absorb first (rest.foldr absorb [])
      rcases List.mem_cons.1 member with rfl | later
      · exact own
      · obtain ⟨old, inside, same⟩ := known later
        obtain ⟨found, present, equal⟩ := others old inside
        exact ⟨found, present, Std.TransCmp.eq_trans same equal⟩

/-- An event in front of ascending ones that are not before it leaves them ascending. -/
theorem absorb_ascending {event : Event A} {events : List (Event A)}
    (ascending : events.Pairwise fun first second => compare first.value second.value = .lt)
    (before : ∀ other ∈ events, event.notAfter other) :
    (event.absorb events).Pairwise fun first second => compare first.value second.value = .lt := by
  cases events with
  | nil => exact List.pairwise_singleton _ _
  | cons next rest =>
      obtain ⟨after, ordered⟩ := List.pairwise_cons.1 ascending
      have head := before next List.mem_cons_self
      rw [absorb]
      rw [notAfter] at head
      cases related : compare event.value next.value with
      | eq =>
          refine List.pairwise_cons.2 ⟨fun other member => ?_, ordered⟩
          exact Std.TransCmp.lt_of_eq_of_lt related (after other member)
      | lt =>
          refine List.pairwise_cons.2 ⟨fun other member => ?_, ascending⟩
          rcases List.mem_cons.1 member with rfl | later
          · exact related
          · exact Std.TransCmp.lt_trans related (after other later)
      | gt =>
          rw [related] at head
          cases head

theorem foldr_absorb_ascending {events : List (Event A)}
    (sorted : events.Pairwise fun first second => first.notAfter second) :
    (events.foldr absorb []).Pairwise fun first second =>
      compare first.value second.value = .lt := by
  induction events with
  | nil => exact List.Pairwise.nil
  | cons event rest known =>
      obtain ⟨before, ordered⟩ := List.pairwise_cons.1 sorted
      apply absorb_ascending (known ordered)
      intro other member
      obtain ⟨found, inside, same⟩ := mem_values_foldr_absorb member
      have bounded := before found inside
      rw [notAfter] at bounded ⊢
      rwa [same]

theorem mergeSort_notAfter (events : List (Event A)) :
    (events.mergeSort notAfter).Pairwise fun first second => first.notAfter second := by
  refine List.pairwise_mergeSort ?_ ?_ events
  · intro first second third
    exact Std.TransCmp.isLE_trans
  · intro first second
    have swapped : compare second.value first.value = (compare first.value second.value).swap :=
      Std.OrientedCmp.eq_swap
    rw [notAfter, notAfter, swapped]
    cases compare first.value second.value <;> rfl

end Order

end Event

namespace Distribution

theorem total_eq_expectation {A : Type} (distribution : Distribution A) :
    distribution.total = Event.expectation distribution.events fun _ => 1 := by
  rw [total]
  induction distribution.events with
  | nil => rfl
  | cons event rest known => rw [List.foldr_cons, known, Event.expectation_cons, mul_one]

/-- The mean of a weight over independent pairs is a mean of means. -/
theorem expectation_pairs {A B : Type} (left : Distribution A) (right : Distribution B)
    (weight : A × B → Rat) :
    Event.expectation (left.pairs right) weight =
      Event.expectation left.events fun first =>
        Event.expectation right.events fun second => weight (first, second) := by
  have inner (event : Event A) : Event.expectation (right.events.map fun other =>
        ⟨(event.value, other.value), event.probability * other.probability⟩) weight =
      event.probability * Event.expectation right.events fun second => weight (event.value, second) := by
    rw [Event.expectation, Event.expectation, List.map_map, ← List.sum_map_mul_left]
    congr 2
    funext other
    exact mul_assoc _ _ _
  rw [pairs]
  induction left.events with
  | nil => rfl
  | cons event rest known =>
      rw [List.flatMap_cons, Event.expectation_append, known, inner, Event.expectation_cons]

variable {A B : Type} [Ord A]

theorem expectation_ofEvents {weight : A → Rat} (respects : Respects weight)
    (events : List (Event A)) :
    Event.expectation (ofEvents events).events weight = Event.expectation events weight :=
  (Event.expectation_foldr_absorb respects _).trans
    (Event.expectation_perm (List.mergeSort_perm events _) weight)

theorem mem_values_ofEvents {events : List (Event A)} {event : Event A}
    (member : event ∈ (ofEvents events).events) : ∃ old ∈ events, event.value = old.value := by
  obtain ⟨old, inside, same⟩ := Event.mem_values_foldr_absorb member
  exact ⟨old, (List.mergeSort_perm events _).mem_iff.1 inside, same⟩

variable [Std.TransOrd A]

theorem ofEvents_ascending (events : List (Event A)) : (ofEvents events).Ascending :=
  Event.foldr_absorb_ascending (Event.mergeSort_notAfter events)

theorem die?_ascending {sides : Int} {die : Distribution Int} (rolled : die? sides = .ok die) :
    die.Ascending := by
  rw [die?] at rolled
  split at rolled
  · cases rolled
  · obtain rfl := Except.ok.inj rolled
    refine List.pairwise_map.2 (List.pairwise_lt_range.imp fun {first second} less => ?_)
    exact compare_lt_iff_lt.2 (by simpa using less)

theorem exists_mem_ofEvents {events : List (Event A)} {event : Event A} (member : event ∈ events) :
    ∃ found ∈ (ofEvents events).events, compare event.value found.value = .eq :=
  Event.exists_mem_foldr_absorb ((List.mergeSort_perm events _).mem_iff.2 member)

/-- Equal outcomes of an ascending distribution are the same event. -/
theorem Ascending.eq_of_compare {distribution : Distribution A} (ascending : distribution.Ascending)
    {first second : Event A} (ofFirst : first ∈ distribution.events)
    (ofSecond : second ∈ distribution.events)
    (same : compare first.value second.value = .eq) : first = second := by
  have apart : distribution.events.Pairwise fun first second =>
      compare first.value second.value = .eq → first = second :=
    ascending.imp fun less equal => by rw [less] at equal; cases equal
  have flipped : distribution.events.Pairwise (flip fun first second =>
      compare first.value second.value = .eq → first = second) :=
    ascending.imp fun less equal => by
      rw [Std.OrientedCmp.eq_symm equal] at less
      cases less
  exact List.Pairwise.forall_of_forall_of_flip (fun _ _ _ => rfl) apart flipped ofFirst ofSecond same

/-- Every weight on the events of an ascending distribution extends to one that respects the order.
-/
theorem Ascending.exists_respects {distribution : Distribution A}
    (ascending : distribution.Ascending) (weight : A → Rat) :
    ∃ extended : A → Rat, Respects extended ∧ ∀ event ∈ distribution.events, ∀ value,
      compare value event.value = .eq → extended value = weight event.value := by
  classical
  let extended (value : A) : Rat :=
    ((distribution.events.find? fun event => compare value event.value == .eq).map fun event =>
      weight event.value).getD 0
  refine ⟨extended, fun first second same => ?_, fun event member value same => ?_⟩
  · have classes : (fun event : Event A => compare first event.value == .eq) =
        fun event => compare second event.value == .eq := by
      funext event
      rw [Std.TransCmp.congr_left same]
    simp only [extended, classes]
  · have reached : (distribution.events.find? fun event => compare value event.value == .eq).isSome :=
      List.find?_isSome.2 ⟨event, member, beq_iff_eq.2 same⟩
    obtain ⟨found, located⟩ := Option.isSome_iff_exists.1 reached
    have chosen := List.find?_some located
    have equal : compare value found.value = .eq := beq_iff_eq.1 chosen
    obtain rfl : found = event := ascending.eq_of_compare (List.mem_of_find?_eq_some located) member
      (Std.TransCmp.eq_trans (Std.OrientedCmp.eq_symm equal) same)
    simp only [extended, located, Option.map_some, Option.getD_some]

end Distribution

end DiceOdds
