import DiceOdds.Proofs.NormalForm

/-
This file says which fault an operation on the outcomes of distributions reports. Ascending outcomes are
taken in their order, so the first fault is that of the least outcome, or of the least pair of outcomes,
and the probabilities have no part in it.
-/

namespace DiceOdds

/-- In a strictly increasing list the first failure is that of the least failing site. -/
theorem isFirst_iff_least {A F : Type} (order : A → A → Ordering) [Std.TransCmp order]
    {fails : A → F → Prop} {sites : List A} {failure : F}
    (increasing : sites.Pairwise fun first second => order first second = .lt) :
    IsFirst fails sites failure ↔ ∃ site ∈ sites, fails site failure ∧
      ∀ other ∈ sites, (∃ reason, fails other reason) → (order site other).isLE := by
  constructor
  · rintro ⟨before, site, after, rfl, clear, failed⟩
    refine ⟨site, by simp, failed, fun other member otherFails => ?_⟩
    obtain ⟨reason, otherFailed⟩ := otherFails
    rcases List.mem_append.1 member with earlier | later
    · exact absurd otherFailed (clear other earlier reason)
    rcases List.mem_cons.1 later with rfl | behind
    · have itself : order other other = .eq := Std.ReflCmp.compare_self
      rw [itself]
      rfl
    · obtain ⟨-, fromSite, -⟩ := List.pairwise_append.1 increasing
      rw [(List.pairwise_cons.1 fromSite).1 other behind]
      rfl
  · rintro ⟨site, member, failed, least⟩
    obtain ⟨before, after, rfl⟩ := List.append_of_mem member
    refine ⟨before, site, after, rfl, fun earlier inside reason earlierFailed => ?_, failed⟩
    obtain ⟨-, -, below⟩ := List.pairwise_append.1 increasing
    have less := below earlier inside site List.mem_cons_self
    have notAfter := least earlier (List.mem_append_left _ inside) ⟨reason, earlierFailed⟩
    rw [Std.OrientedCmp.gt_of_lt less] at notAfter
    cases notAfter

namespace Distribution

variable {A B C E : Type}

section Images

variable [Ord B] {distribution : Distribution A} {image : A → Except E B}

/-- The first outcome without an image decides about the fault. -/
theorem tryMap_eq_error_iff {fault : E} : distribution.tryMap image = .error fault ↔
    IsFirst (fun value reason => image value = .error reason) distribution.values fault := by
  have step (event : Event A) (reason : E) :
      (do return (⟨← image event.value, event.probability⟩ : Event B)) = .error reason ↔
        image event.value = .error reason := by
    cases image event.value <;> simp [bind, Except.bind, pure, Except.pure]
  rw [values, isFirst_map]
  simp only [← step]
  rw [← Except.mapM_eq_error_iff, tryMap]
  constructor
  · intro failed
    rcases Except.bind_eq_error failed with ran | ⟨images, -, impossible⟩
    · exact ran
    · cases impossible
  · intro ran
    rw [ran]
    rfl

/-- All outcomes together have images exactly when each of them has one. -/
theorem exists_tryMap_iff : (∃ images, distribution.tryMap image = .ok images) ↔
    ∀ value ∈ distribution.values, ∃ result, image value = .ok result := by
  have fails : (∃ fault, distribution.tryMap image = .error fault) ↔
      ∃ value ∈ distribution.values, ∃ fault, image value = .error fault := by
    simp only [tryMap_eq_error_iff, exists_isFirst_iff]
  constructor
  · rintro ⟨images, mapped⟩ value member
    cases imaged : image value with
    | ok result => exact ⟨result, rfl⟩
    | error fault =>
        obtain ⟨other, failed⟩ := fails.2 ⟨value, member, fault, imaged⟩
        rw [mapped] at failed
        cases failed
  · intro imaged
    cases mapped : distribution.tryMap image with
    | ok images => exact ⟨images, rfl⟩
    | error fault =>
        obtain ⟨value, member, other, failed⟩ := fails.1 ⟨fault, mapped⟩
        obtain ⟨result, made⟩ := imaged value member
        rw [made] at failed
        cases failed

end Images

section Pairs

variable {left : Distribution A} {right : Distribution B} {image : A → B → Except E C}

/-- This is the distribution of two independent draws. -/
def paired (left : Distribution A) (right : Distribution B) : Distribution (A × B) :=
  ⟨left.pairs right⟩

/-- Joining two draws is mapping the pairs of their outcomes. -/
theorem tryJoin_eq_tryMap [Ord C] (left : Distribution A) (right : Distribution B)
    (image : A → B → Except E C) :
    left.tryJoin right image = (left.paired right).tryMap fun pair => image pair.1 pair.2 :=
  rfl

/-- The outcomes of two draws are joined in the order of the left ones and then of the right ones. -/
theorem values_paired (left : Distribution A) (right : Distribution B) :
    (left.paired right).values = left.values ×ˢ right.values := by
  rw [values, paired, pairs, values, values, List.map_flatMap]
  change _ = (left.events.map Event.value).flatMap fun first => _
  rw [List.flatMap_map]
  simp only [List.map_map]
  rfl

theorem mem_values_paired {pair : A × B} :
    pair ∈ (left.paired right).values ↔ pair.1 ∈ left.values ∧ pair.2 ∈ right.values := by
  rw [values_paired]
  exact List.mem_product

/-- Pairs of outcomes are ordered by the left outcome and then by the right one. -/
def pairOrder [Ord A] [Ord B] : A × B → A × B → Ordering :=
  compareLex (compareOn Prod.fst) (compareOn Prod.snd)

theorem pairOrder_mk [Ord A] [Ord B] (first other : A) (second next : B) :
    pairOrder (first, second) (other, next) = (compare first other).then (compare second next) :=
  rfl

instance [Ord A] [Ord B] [Std.TransOrd A] [Std.TransOrd B] :
    Std.TransCmp (pairOrder : A × B → A × B → Ordering) :=
  inferInstanceAs (Std.TransCmp (compareLex (compareOn Prod.fst) (compareOn Prod.snd)))

theorem Ascending.values_increasing [Ord A] {distribution : Distribution A}
    (ascending : distribution.Ascending) :
    distribution.values.Pairwise fun first second => compare first second = .lt :=
  List.pairwise_map.2 ascending

/-- The pairs of increasing outcomes increase. -/
theorem paired_increasing [Ord A] [Ord B] [Std.TransOrd A] (ofLeft : left.Ascending)
    (ofRight : right.Ascending) :
    (left.paired right).values.Pairwise fun one other => pairOrder one other = .lt := by
  rw [values_paired]
  refine List.pairwise_flatMap.2 ⟨fun first _ => ?_, ofLeft.values_increasing.imp ?_⟩
  · refine List.pairwise_map.2 (ofRight.values_increasing.imp fun less => ?_)
    rw [pairOrder_mk, Std.ReflOrd.compare_self]
    exact less
  · intro first second less one inFirst other inSecond
    obtain ⟨_, -, rfl⟩ := List.mem_map.1 inFirst
    obtain ⟨_, -, rfl⟩ := List.mem_map.1 inSecond
    rw [pairOrder_mk, less]
    rfl

variable [Ord C]

/-- Where every pair of outcomes has an image, joining them is joining that cannot fail. -/
theorem tryJoin_eq_join {result : A → B → C} (imaged : ∀ first ∈ left.values,
    ∀ second ∈ right.values, image first second = .ok (result first second)) :
    left.tryJoin right image = .ok (left.join right result) := by
  have mapped : (left.paired right).tryMap (fun pair => image pair.1 pair.2) =
      .ok ((left.paired right).map fun pair => result pair.1 pair.2) := by
    refine tryMap_eq_map fun pair member => ?_
    obtain ⟨inLeft, inRight⟩ := mem_values_paired.1 member
    exact imaged pair.1 inLeft pair.2 inRight
  exact mapped

theorem exists_tryJoin_iff : (∃ joined, left.tryJoin right image = .ok joined) ↔
    ∀ first ∈ left.values, ∀ second ∈ right.values, ∃ result, image first second = .ok result := by
  simp only [tryJoin_eq_tryMap, exists_tryMap_iff, mem_values_paired, Prod.forall]
  exact ⟨fun imaged first inLeft second inRight => imaged first second ⟨inLeft, inRight⟩,
    fun imaged first second member => imaged first member.1 second member.2⟩

/-- The least pair without an image decides about the fault. -/
theorem tryJoin_eq_error_iff [Ord A] [Ord B] [Std.TransOrd A] [Std.TransOrd B]
    (ofLeft : left.Ascending) (ofRight : right.Ascending) {fault : E} :
    left.tryJoin right image = .error fault ↔ ∃ first ∈ left.values, ∃ second ∈ right.values,
      image first second = .error fault ∧ ∀ other ∈ left.values, ∀ next ∈ right.values,
        (∃ reason, image other next = .error reason) →
          ((compare first other).then (compare second next)).isLE := by
  rw [tryJoin_eq_tryMap, tryMap_eq_error_iff,
    isFirst_iff_least pairOrder (paired_increasing ofLeft ofRight)]
  simp only [mem_values_paired, Prod.exists, Prod.forall, pairOrder_mk]
  constructor
  · rintro ⟨first, second, ⟨inLeft, inRight⟩, failed, least⟩
    exact ⟨first, inLeft, second, inRight, failed, fun other also next within =>
      least other next ⟨also, within⟩⟩
  · rintro ⟨first, inLeft, second, inRight, failed, least⟩
    exact ⟨first, second, ⟨inLeft, inRight⟩, failed, fun other next member =>
      least other member.1 next member.2⟩

end Pairs

section Agreement

variable {A' B' E' : Type}

/-- Distributions have the same outcomes when equal values occur in them, with any probabilities. -/
def SameOutcomes [Ord A] (first second : Distribution A) : Prop :=
  ∀ value, (∃ outcome ∈ first.values, compare outcome value = .eq) ↔
    ∃ outcome ∈ second.values, compare outcome value = .eq

/-- The outcomes of distributions with the same outcomes are equal in turn. -/
theorem Ascending.aligned [Ord A] [Std.TransOrd A] {first second : Distribution A}
    (ofFirst : first.Ascending) (ofSecond : second.Ascending) (same : first.SameOutcomes second) :
    List.Forall₂ (fun one other => one ∈ first.values ∧ other ∈ second.values ∧
      compare one other = .eq) first.values second.values := by
  refine forall₂_of_increasing compare (fun one other related => related.2.2)
    ofFirst.values_increasing ofSecond.values_increasing (fun one member => ?_) fun other member => ?_
  · obtain ⟨other, inside, equal⟩ := (same one).1 ⟨one, member, Std.ReflOrd.compare_self⟩
    exact ⟨other, inside, member, inside, Std.OrientedCmp.eq_symm equal⟩
  · obtain ⟨one, inside, equal⟩ := (same other).2 ⟨other, member, Std.ReflOrd.compare_self⟩
    exact ⟨one, inside, inside, member, equal⟩

/-- Outcomes that are equal in turn are the same ones. -/
theorem sameOutcomes_of_forall₂ [Ord A] [Std.TransOrd A] {first second : Distribution A}
    (aligned : List.Forall₂ (fun one other => compare one other = .eq) first.values second.values) :
    first.SameOutcomes second := by
  intro value
  generalize first.values = ones at aligned
  generalize second.values = others at aligned
  induction aligned with
  | nil => exact Iff.rfl
  | cons equal _ known =>
      simp only [List.exists_mem_cons_iff, Std.TransCmp.congr_left equal, known]

/-- Sorting and merging events does not change which outcomes occur. -/
theorem sameOutcomes_ofEvents [Ord A] [Std.TransOrd A] (events : List (Event A)) :
    (ofEvents events).SameOutcomes ⟨events⟩ := by
  intro value
  simp only [values, List.mem_map, exists_exists_and_eq_and]
  exact (ofEvents_weighSame events).occurs value

/-- Images of related outcomes have the same outcomes together, or related faults. -/
theorem tryMap_agree [Ord B] [Std.TransOrd B] {related : A → A' → Prop} {faults : E → E' → Prop}
    {first : Distribution A} {second : Distribution A'} {image : A → Except E B}
    {other : A' → Except E' B} (aligned : List.Forall₂ related first.values second.values)
    (images : ∀ one next, related one next →
      Agree faults (fun result also => compare result also = .eq) (image one) (other next)) :
    Agree faults SameOutcomes (first.tryMap image) (second.tryMap other) := by
  rw [values, values, List.forall₂_map_left_iff, List.forall₂_map_right_iff] at aligned
  have steps (one : Event A) (next : Event A') (pair : related one.value next.value) :
      Agree faults (fun result also => compare result.value also.value = .eq)
        (do return (⟨← image one.value, one.probability⟩ : Event B))
        (do return (⟨← other next.value, next.probability⟩ : Event B)) :=
    (images _ _ pair).bind fun result also equal => .ok equal
  refine (Except.agree_mapM aligned steps).bind fun events others equal => .ok fun value => ?_
  have same : (Distribution.mk events).SameOutcomes ⟨others⟩ := by
    refine sameOutcomes_of_forall₂ ?_
    rwa [values, values, List.forall₂_map_left_iff, List.forall₂_map_right_iff]
  exact (sameOutcomes_ofEvents events value).trans
    ((same value).trans (sameOutcomes_ofEvents others value).symm)

/-- Joins of related outcomes have the same outcomes together, or related faults. -/
theorem tryJoin_agree [Ord C] [Std.TransOrd C] {ofLeft : A → A' → Prop} {ofRight : B → B' → Prop}
    {faults : E → E' → Prop} {left : Distribution A} {right : Distribution B}
    {otherLeft : Distribution A'} {otherRight : Distribution B'} {image : A → B → Except E C}
    {other : A' → B' → Except E' C} (lefts : List.Forall₂ ofLeft left.values otherLeft.values)
    (rights : List.Forall₂ ofRight right.values otherRight.values)
    (images : ∀ first second next after, ofLeft first second → ofRight next after →
      Agree faults (fun result also => compare result also = .eq)
        (image first next) (other second after)) :
    Agree faults SameOutcomes (left.tryJoin right image) (otherLeft.tryJoin otherRight other) := by
  have aligned : List.Forall₂ (fun (one : A × B) (next : A' × B') =>
      ofLeft one.1 next.1 ∧ ofRight one.2 next.2) (left.paired right).values
      (otherLeft.paired otherRight).values := by
    rw [values_paired, values_paired]
    refine List.rel_flatMap lefts fun first second inLeft => ?_
    rw [List.forall₂_map_left_iff, List.forall₂_map_right_iff]
    exact rights.imp fun next after inRight => ⟨inLeft, inRight⟩
  rw [tryJoin_eq_tryMap, tryJoin_eq_tryMap]
  exact tryMap_agree aligned fun one next pair => images one.1 next.1 one.2 next.2 pair.1 pair.2

end Agreement

end Distribution

end DiceOdds
