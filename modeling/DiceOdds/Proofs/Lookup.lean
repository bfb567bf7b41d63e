import DiceOdds.Proofs.Expectation

/-
This file shows that the look-up by halves finds the probability of a value. In ascending events it is
the mass of the value, and the half that the look-up leaves has no mass for it.
-/

namespace DiceOdds

namespace Event

variable {A : Type} [Ord A]

/-- The mass of a value is the sum of the probabilities that a list of events gives to it. -/
def mass (events : List (Event A)) (value : A) : Rat :=
  events.foldr
    (fun event sum => match compare event.value value with
      | .eq => event.probability + sum
      | _ => sum) 0

theorem mass_cons (event : Event A) (rest : List (Event A)) (value : A) :
    mass (event :: rest) value =
      if compare event.value value = .eq then event.probability + mass rest value
      else mass rest value := by
  rw [mass, List.foldr_cons, ← mass]
  cases compare event.value value <;> rfl

/-- The mass of a value is the mean of its indicator. -/
theorem mass_eq_expectation (events : List (Event A)) (value : A) :
    mass events value =
      expectation events fun other => if compare other value = .eq then 1 else 0 := by
  induction events with
  | nil => rfl
  | cons event rest known =>
      rw [mass_cons, known, expectation_cons]
      split <;> simp

/-- The mass of a value is the sum of the probabilities that are paired with it. -/
theorem mass_eq_sum (events : List (Event A)) (value : A) :
    mass events value =
      ((events.filter fun event => compare event.value value == .eq).map probability).sum := by
  induction events with
  | nil => rfl
  | cons event rest known =>
      rw [mass_cons, known, List.filter_cons]
      cases compare event.value value <;> rfl

/-- A value that no outcome equals has no mass. -/
theorem mass_eq_zero {events : List (Event A)} {value : A}
    (apart : ∀ event ∈ events, compare event.value value ≠ .eq) : mass events value = 0 := by
  have paired : (events.filter fun event => compare event.value value == .eq) = [] :=
    List.filter_eq_nil_iff.2 fun event member => by simpa using apart event member
  rw [mass_eq_sum, paired]
  rfl

theorem mass_append (first second : List (Event A)) (value : A) :
    mass (first ++ second) value = mass first value + mass second value := by
  simp only [mass_eq_expectation, expectation_append]

variable [Std.TransOrd A]

theorem mass_congr (events : List (Event A)) {value other : A} (same : compare value other = .eq) :
    mass events value = mass events other := by
  simp only [mass_eq_expectation, Std.TransCmp.congr_right same]

variable {value : A}

/-- Of ascending events those on one side of an event that is not the value have no mass for it. -/
theorem mass_halved {events before later : List (Event A)} {middle : Event A}
    (parts : before ++ middle :: later = events)
    (ascending : events.Pairwise fun first second => compare first.value second.value = .lt) :
    mass events value =
      match compare middle.value value with
      | .eq => middle.probability
      | .lt => mass later value
      | .gt => mass before value := by
  subst parts
  obtain ⟨-, ofLater, between⟩ := List.pairwise_append.1 ascending
  have below (event : Event A) (member : event ∈ before) :
      compare event.value middle.value = .lt := between event member middle List.mem_cons_self
  have above (event : Event A) (member : event ∈ later) :
      compare middle.value event.value = .lt := (List.pairwise_cons.1 ofLater).1 event member
  have nothingBefore (reached : (compare middle.value value).isLE) : mass before value = 0 :=
    mass_eq_zero fun event member same => by
      have less := Std.TransCmp.lt_of_lt_of_isLE (below event member) reached
      rw [same] at less
      cases less
  have nothingLater (reached : (compare value middle.value).isLE) : mass later value = 0 :=
    mass_eq_zero fun event member same => by
      have less := Std.TransCmp.lt_of_isLE_of_lt reached (above event member)
      rw [Std.OrientedCmp.eq_symm same] at less
      cases less
  rw [mass_append, mass_cons]
  cases related : compare middle.value value with
  | lt => simp [nothingBefore, related]
  | eq =>
      have equal : compare value middle.value = .eq := Std.OrientedCmp.eq_symm related
      simp [nothingBefore, nothingLater, related, equal]
  | gt =>
      have less : compare value middle.value = .lt := Std.OrientedCmp.lt_of_gt related
      simp [nothingLater, less]

/-- In ascending events the look-up finds the mass of every value. -/
theorem search?_probability {events : List (Event A)}
    (ascending : events.Pairwise fun first second => compare first.value second.value = .lt) :
    ((search? value events).map probability).getD 0 = mass events value := by
  have parts {events later : List (Event A)} {middle : Event A}
      (halved : events.drop (events.length / 2) = middle :: later) :
      events.take (events.length / 2) ++ middle :: later = events := by
    rw [← halved, List.take_append_drop]
  -- The half that the search leaves has no mass for the value, so its result is that of the other one.
  fun_induction search? value events with
  | case1 events halved =>
      have length := congrArg List.length halved
      rw [List.length_drop, List.length_nil] at length
      rw [List.length_eq_zero_iff.1 (show events.length = 0 by omega)]
      rfl
  | case2 events middle later halved related =>
      rw [mass_halved (parts halved) ascending, related]
      rfl
  | case3 events middle later halved related known =>
      have ofLater := ascending.sublist (List.drop_sublist (events.length / 2) events)
      rw [halved] at ofLater
      rw [mass_halved (parts halved) ascending, related]
      exact known (List.pairwise_cons.1 ofLater).2
  | case4 events middle later halved related known =>
      rw [mass_halved (parts halved) ascending, related]
      exact known (ascending.sublist (List.take_sublist (events.length / 2) events))

end Event

namespace Distribution

variable {A : Type} [Ord A] [Std.TransOrd A] {distribution : Distribution A}

/-- In an ascending distribution the probability of a value is its mass. -/
theorem Ascending.probability_eq_mass (ascending : distribution.Ascending) (value : A) :
    distribution.probability value = Event.mass distribution.events value :=
  Event.search?_probability ascending

/-- In an ascending distribution the probability of an event is that of its outcome. -/
theorem Ascending.probability_eq (ascending : distribution.Ascending) {event : Event A}
    (member : event ∈ distribution.events) :
    distribution.probability event.value = event.probability := by
  obtain ⟨before, later, parts⟩ := List.append_of_mem member
  have itself : compare event.value event.value = .eq := Std.ReflCmp.compare_self
  rw [ascending.probability_eq_mass, Event.mass_halved parts.symm ascending, itself]

end Distribution

end DiceOdds
