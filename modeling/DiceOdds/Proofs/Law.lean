import DiceOdds.Proofs.Lookup

/-
This file compares distributions with equally likely rolls. A list of events describes a quantity of
the rolls when every weight has the same mean in both; all operations on distributions follow the
quantities of their operands.
-/

namespace DiceOdds

open Finset

/-- A list of events describes a quantity when it has the quantity's outcomes and means, all rolls
being equally likely. -/
structure Describes {A Roll : Type} [Fintype Roll] (events : List (Event A)) (quantity : Roll → A) :
    Prop where
  expectation : ∀ weight, Event.expectation events weight =
    (∑ roll, weight (quantity roll)) / Fintype.card Roll
  values : ∀ value, value ∈ events.map Event.value ↔ ∃ roll, quantity roll = value

namespace Describes

variable {A B Roll Other : Type} [Fintype Roll] [Fintype Other] {events : List (Event A)}
  {quantity : Roll → A}

theorem exists_event (describes : Describes events quantity) (roll : Roll) :
    ∃ event ∈ events, event.value = quantity roll :=
  List.mem_map.1 ((describes.values _).2 ⟨roll, rfl⟩)

theorem exists_roll (describes : Describes events quantity) {event : Event A}
    (member : event ∈ events) : ∃ roll, quantity roll = event.value :=
  (describes.values _).1 (List.mem_map_of_mem member)

/-- Only the number of rolls counts, not their names. -/
theorem equiv (describes : Describes events quantity) (renamed : Other ≃ Roll) :
    Describes events fun roll => quantity (renamed roll) where
  expectation weight := by
    rw [describes.expectation, Fintype.card_congr renamed,
      Equiv.sum_comp renamed fun roll => weight (quantity roll)]
  values value := by rw [describes.values, renamed.exists_congr_left]; simp

theorem map (describes : Describes events quantity) (image : A → B) :
    Describes (events.map fun event => (⟨image event.value, event.probability⟩ : Event B))
      fun roll => image (quantity roll) where
  expectation weight := by rw [Event.expectation_map, describes.expectation]
  values value := by
    rw [List.map_map, List.mem_map]
    constructor
    · rintro ⟨event, member, rfl⟩
      obtain ⟨roll, same⟩ := describes.exists_roll member
      exact ⟨roll, congrArg image same⟩
    · rintro ⟨roll, rfl⟩
      obtain ⟨event, member, same⟩ := describes.exists_event roll
      exact ⟨event, member, congrArg image same⟩

/-- Independent quantities have the products of their events. -/
theorem pairs {left : Distribution A} {right : Distribution B} {first : Roll → A}
    {second : Other → B} (ofLeft : Describes left.events first)
    (ofRight : Describes right.events second) :
    Describes (left.pairs right) fun rolls : Roll × Other => (first rolls.1, second rolls.2) where
  expectation weight := by
    rw [Distribution.expectation_pairs]
    simp only [ofRight.expectation fun value => weight (_, value)]
    rw [ofLeft.expectation, ← Finset.sum_div, div_div, Fintype.sum_prod_type,
      Fintype.card_prod, Nat.cast_mul, mul_comm (Fintype.card Other : Rat)]
  values value := by
    rw [Distribution.pairs, List.map_flatMap]
    simp only [List.map_map, List.mem_flatMap, List.mem_map, Function.comp_apply]
    constructor
    · rintro ⟨event, member, other, inside, rfl⟩
      obtain ⟨roll, same⟩ := ofLeft.exists_roll member
      obtain ⟨later, equal⟩ := ofRight.exists_roll inside
      exact ⟨(roll, later), by rw [same, equal]⟩
    · rintro ⟨⟨roll, later⟩, rfl⟩
      obtain ⟨event, member, same⟩ := ofLeft.exists_event roll
      obtain ⟨other, inside, equal⟩ := ofRight.exists_event later
      exact ⟨event, member, other, inside, by rw [same, equal]⟩

/-- A run over the events that succeeds gives every roll its image. -/
theorem mapM_ok {E : Type} (describes : Describes events quantity) (image : A → Except E B)
    {images : List (Event B)}
    (ran : (events.mapM fun event => do
      return (⟨← image event.value, event.probability⟩ : Event B)) = .ok images) :
    ∃ result : Roll → B, Describes images result ∧
      ∀ roll, image (quantity roll) = .ok (result roll) := by
  have same := Except.mapM_eq_ok_iff.1 ran
  have reached (roll : Roll) : ∃ found ∈ images, image (quantity roll) = .ok found.value := by
    obtain ⟨event, member, agrees⟩ := describes.exists_event roll
    have step := List.mem_map_of_mem (f := fun event => do
      return (⟨← image event.value, event.probability⟩ : Event B)) member
    rw [same] at step
    obtain ⟨found, inside, equal⟩ := List.mem_map.1 step
    obtain ⟨value, imaged, rest⟩ := Except.bind_eq_ok equal.symm
    cases rest
    exact ⟨_, inside, agrees ▸ imaged⟩
  choose found member imaged using reached
  refine ⟨fun roll => (found roll).value, ⟨fun weight => ?_, fun value => ?_⟩, imaged⟩
  · let total : Except E B → Rat
      | .ok value => weight value
      | .error _ => 0
    have moved : Event.expectation images weight =
        Event.expectation events fun value => total (image value) :=
      Event.expectation_of_map_eq same fun _ => rfl
    rw [moved, describes.expectation]
    congr 1
    exact Finset.sum_congr rfl fun roll _ => by rw [imaged roll]
  · constructor
    · intro present
      obtain ⟨result, inside, rfl⟩ := List.mem_map.1 present
      obtain ⟨event, before, equal⟩ := Except.exists_of_mem_mapM ran inside
      obtain ⟨value, own, made⟩ := Except.bind_eq_ok equal
      cases made
      obtain ⟨roll, reaches⟩ := describes.exists_roll before
      refine ⟨roll, Except.ok.inj ((imaged roll).symm.trans ?_)⟩
      rw [reaches, own]
    · rintro ⟨roll, rfl⟩
      exact List.mem_map_of_mem (member roll)

/-- A run over the events that fails has a roll with this fault. -/
theorem mapM_error {E : Type} (describes : Describes events quantity) (image : A → Except E B)
    {fault : E}
    (ran : (events.mapM fun event => do
      return (⟨← image event.value, event.probability⟩ : Event B)) = .error fault) :
    ∃ roll, image (quantity roll) = .error fault := by
  obtain ⟨event, member, failed⟩ := Except.exists_of_mapM_eq_error ran
  obtain ⟨roll, same⟩ := describes.exists_roll member
  refine ⟨roll, ?_⟩
  rw [same]
  rcases Except.bind_eq_error failed with own | ⟨value, -, impossible⟩
  · exact own
  · cases impossible

end Describes

/-- A distribution is the law of a quantity when it is ascending and describes the quantity. -/
structure IsLaw {A Roll : Type} [Ord A] [Fintype Roll] (distribution : Distribution A)
    (quantity : Roll → A) : Prop where
  ascending : distribution.Ascending
  describes : Describes distribution.events quantity

/-- A merged quantity shows one of several equal outcomes in place of each of them. -/
structure Merges {A Roll : Type} [Ord A] (quantity merged : Roll → A) : Prop where
  same : ∀ roll, compare (quantity roll) (merged roll) = .eq
  chosen : ∀ roll, ∃ other, merged roll = quantity other

theorem Describes.ofEvents {A Roll : Type} [Ord A] [Std.TransOrd A] [Fintype Roll]
    {events : List (Event A)} {quantity : Roll → A} (describes : Describes events quantity) :
    ∃ merged : Roll → A, IsLaw (.ofEvents events) merged ∧ Merges quantity merged := by
  have reached (roll : Roll) : ∃ found ∈ (Distribution.ofEvents events).events,
      compare (quantity roll) found.value = .eq := by
    obtain ⟨event, member, same⟩ := describes.exists_event roll
    rw [← same]
    exact Distribution.exists_mem_ofEvents member
  choose found member same using reached
  have ascending := Distribution.ofEvents_ascending events
  have chosen (roll : Roll) : ∃ other, (found roll).value = quantity other := by
    obtain ⟨old, before, equal⟩ := Distribution.mem_values_ofEvents (member roll)
    obtain ⟨other, reaches⟩ := describes.exists_roll before
    exact ⟨other, equal.trans reaches.symm⟩
  refine ⟨fun roll => (found roll).value, ⟨ascending, fun weight => ?_, fun value => ?_⟩, same, chosen⟩
  · obtain ⟨extended, respects, agrees⟩ := ascending.exists_respects weight
    rw [Event.expectation_congr fun event inside =>
        (agrees event inside event.value Std.ReflCmp.compare_self).symm,
      Distribution.expectation_ofEvents respects, describes.expectation]
    congr 1
    exact Finset.sum_congr rfl fun roll _ => agrees (found roll) (member roll) _ (same roll)
  · constructor
    · intro present
      obtain ⟨event, inside, rfl⟩ := List.mem_map.1 present
      obtain ⟨old, before, equal⟩ := Distribution.mem_values_ofEvents inside
      obtain ⟨roll, reaches⟩ := describes.exists_roll before
      refine ⟨roll, congrArg Event.value (ascending.eq_of_compare (member roll) inside ?_)⟩
      rw [equal, ← reaches]
      exact Std.OrientedCmp.eq_symm (same roll)
    · rintro ⟨roll, rfl⟩
      exact List.mem_map_of_mem (member roll)

namespace IsLaw

variable {A B C E Roll Other : Type} [Ord A] [Fintype Roll] [Fintype Other]
  {distribution : Distribution A} {quantity : Roll → A}

theorem equiv (law : IsLaw distribution quantity) (renamed : Other ≃ Roll) :
    IsLaw distribution fun roll => quantity (renamed roll) :=
  ⟨law.ascending, law.describes.equiv renamed⟩

theorem certain (value : A) : IsLaw (.certain value) fun _ : Unit => value where
  ascending := List.pairwise_singleton _ _
  describes := ⟨fun weight => by simp [Distribution.certain], fun other => by
    simp [Distribution.certain, eq_comm]⟩

section Images

variable [Ord B] {other : Distribution B} {second : Other → B}

theorem map [Std.TransOrd B] (law : IsLaw distribution quantity) (image : A → B) :
    ∃ merged : Roll → B, IsLaw (distribution.map image) merged ∧
      Merges (fun roll => image (quantity roll)) merged :=
  (law.describes.map image).ofEvents

/-- A conversion of all outcomes that succeeds has the law of the images. -/
theorem tryMap [Std.TransOrd B] (law : IsLaw distribution quantity) {image : A → Except E B}
    {result : Distribution B} (ran : distribution.tryMap image = .ok result) :
    ∃ found merged : Roll → B, (∀ roll, image (quantity roll) = .ok (found roll)) ∧
      IsLaw result merged ∧ Merges found merged := by
  obtain ⟨images, mapped, made⟩ := Except.bind_eq_ok ran
  cases made
  obtain ⟨found, describes, imaged⟩ := law.describes.mapM_ok image mapped
  obtain ⟨merged, lawful, same⟩ := describes.ofEvents
  exact ⟨found, merged, imaged, lawful, same⟩

/-- A conversion that fails has an outcome with this fault. -/
theorem tryMap_error (law : IsLaw distribution quantity) {image : A → Except E B} {fault : E}
    (ran : distribution.tryMap image = .error fault) :
    ∃ roll, image (quantity roll) = .error fault := by
  rcases Except.bind_eq_error ran with failed | ⟨images, -, impossible⟩
  · exact law.describes.mapM_error image failed
  · cases impossible

variable [Ord C]

theorem join [Std.TransOrd C] (first : IsLaw distribution quantity) (law : IsLaw other second)
    (image : A → B → C) :
    ∃ merged : Roll × Other → C, IsLaw (distribution.join other image) merged ∧
      Merges (fun rolls => image (quantity rolls.1) (second rolls.2)) merged :=
  ((first.describes.pairs law.describes).map fun pair => image pair.1 pair.2).ofEvents

/-- An operation on all pairs of outcomes that succeeds has the law of the results. -/
theorem tryJoin [Std.TransOrd C] (first : IsLaw distribution quantity) (law : IsLaw other second)
    {image : A → B → Except E C} {result : Distribution C}
    (ran : distribution.tryJoin other image = .ok result) :
    ∃ found merged : Roll × Other → C,
      (∀ rolls, image (quantity rolls.1) (second rolls.2) = .ok (found rolls)) ∧
        IsLaw result merged ∧ Merges found merged := by
  obtain ⟨images, mapped, made⟩ := Except.bind_eq_ok ran
  cases made
  obtain ⟨found, describes, imaged⟩ := (first.describes.pairs law.describes).mapM_ok
    (fun pair => image pair.1 pair.2) mapped
  obtain ⟨merged, lawful, same⟩ := describes.ofEvents
  exact ⟨found, merged, imaged, lawful, same⟩

/-- An operation that fails has a pair of outcomes with this fault. -/
theorem tryJoin_error (first : IsLaw distribution quantity) (law : IsLaw other second)
    {image : A → B → Except E C} {fault : E}
    (ran : distribution.tryJoin other image = .error fault) :
    ∃ rolls : Roll × Other, image (quantity rolls.1) (second rolls.2) = .error fault := by
  rcases Except.bind_eq_error ran with failed | ⟨images, -, impossible⟩
  · exact (first.describes.pairs law.describes).mapM_error
      (fun pair => image pair.1 pair.2) failed
  · cases impossible

end Images

/-- The outcomes of a law are the values that some roll yields. -/
theorem occurs_iff (law : IsLaw distribution quantity) (value : A) :
    (∃ event ∈ distribution.events, compare event.value value = .eq) ↔
      ∃ roll, compare (quantity roll) value = .eq := by
  constructor
  · rintro ⟨event, member, equal⟩
    obtain ⟨roll, reaches⟩ := law.describes.exists_roll member
    exact ⟨roll, reaches ▸ equal⟩
  · rintro ⟨roll, equal⟩
    obtain ⟨event, member, reached⟩ := law.describes.exists_event roll
    exact ⟨event, member, reached ▸ equal⟩

/-- The mass of a value is the share of the rolls that yield it. -/
theorem mass_eq (law : IsLaw distribution quantity) (value : A) :
    Event.mass distribution.events value =
      (#{roll | compare (quantity roll) value = .eq} : Rat) / Fintype.card Roll := by
  rw [Event.mass_eq_expectation, law.describes.expectation, Finset.sum_boole]

/-- The look-up finds the share of the rolls that yield a value. -/
theorem probability_eq [Std.TransOrd A] (law : IsLaw distribution quantity) (value : A) :
    distribution.probability value =
      (#{roll | compare (quantity roll) value = .eq} : Rat) / Fintype.card Roll := by
  rw [law.ascending.probability_eq_mass, law.mass_eq]

/-- The probability of an event is the share of the rolls that yield its outcome. -/
theorem event_probability_eq [Std.TransOrd A] (law : IsLaw distribution quantity) {event : Event A}
    (member : event ∈ distribution.events) : event.probability =
      (#{roll | compare (quantity roll) event.value = .eq} : Rat) / Fintype.card Roll := by
  rw [← law.ascending.probability_eq member, law.probability_eq]

theorem total_eq_one [Nonempty Roll] (law : IsLaw distribution quantity) :
    distribution.total = 1 := by
  rw [Distribution.total_eq_expectation, law.describes.expectation, Finset.sum_const,
    Finset.card_univ, nsmul_one]
  exact div_self (Nat.cast_ne_zero.2 Fintype.card_ne_zero)

/-- An ascending list of events with a law has positive probabilities only. -/
theorem probability_pos [Std.TransOrd A] (law : IsLaw distribution quantity) {event : Event A}
    (member : event ∈ distribution.events) : 0 < event.probability := by
  obtain ⟨roll, same⟩ := law.describes.exists_roll member
  have counted : 0 < #{roll | compare (quantity roll) event.value = .eq} :=
    Finset.card_pos.2 ⟨roll, by simp [same]⟩
  have inhabited : 0 < Fintype.card Roll := Fintype.card_pos_iff.2 ⟨roll⟩
  rw [law.event_probability_eq member]
  exact div_pos (Nat.cast_pos.2 counted) (Nat.cast_pos.2 inhabited)

theorem exists_event [Nonempty Roll] (law : IsLaw distribution quantity) :
    ∃ event, event ∈ distribution.events := by
  obtain ⟨event, member, -⟩ := law.describes.exists_event (Classical.arbitrary Roll)
  exact ⟨event, member⟩

end IsLaw

end DiceOdds
