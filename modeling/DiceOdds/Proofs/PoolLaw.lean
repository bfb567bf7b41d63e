import DiceOdds.Dice.Roll
import DiceOdds.Proofs.Law

/-
This file shows that the distribution of a dice pool is the law of its sum when every die shows each
of its faces equally often. The merged partial sums and the sorted rolls lose nothing. A pool without
a distribution reports the first condition that its numbers do not meet.
-/

namespace DiceOdds

namespace IsLaw

variable {A Roll Start : Type} [Ord A] [Std.TransOrd A] [Std.LawfulEqOrd A] [Fintype Roll]
  [Fintype Start] {distribution first : Distribution A} {quantity : Roll → A} {start : Start → A}

/-- Where equal outcomes are identical, images keep their identity as well. -/
theorem map_exact {B : Type} [Ord B] {source : Distribution B} {outcome : Roll → B}
    (law : IsLaw source outcome) (image : B → A) :
    IsLaw (source.map image) fun roll => image (outcome roll) := by
  obtain ⟨merged, lawful, same⟩ := law.map image
  have identical : merged = fun roll => image (outcome roll) := by
    funext roll
    exact (Std.LawfulEqOrd.eq_of_compare (same.same roll)).symm
  exact identical ▸ lawful

theorem join_exact (law : IsLaw first start) (other : IsLaw distribution quantity)
    (image : A → A → A) : IsLaw (first.join distribution image) fun rolls : Start × Roll =>
      image (start rolls.1) (quantity rolls.2) := by
  obtain ⟨merged, lawful, same⟩ := law.join other image
  have identical : merged = fun rolls => image (start rolls.1) (quantity rolls.2) := by
    funext rolls
    exact (Std.LawfulEqOrd.eq_of_compare (same.same rolls)).symm
  exact identical ▸ lawful

/-- Joining equal distributions one at a time folds the quantities of independent rolls. -/
theorem foldl_join (law : IsLaw distribution quantity) (image : A → A → A) (count : Nat) :
    ∀ {Start : Type} [Fintype Start] {first : Distribution A} {start : Start → A},
      IsLaw first start →
      IsLaw ((List.replicate count distribution).foldl (fun drawn next => drawn.join next image) first)
        fun rolls : Start × (Fin count → Roll) =>
          (List.ofFn fun die => quantity (rolls.2 die)).foldl image (start rolls.1) := by
  induction count with
  | zero =>
      intro Start _ first start ofFirst
      exact ofFirst.equiv (Equiv.prodUnique Start (Fin 0 → Roll))
  | succ count known =>
      intro Start _ first start ofFirst
      have next := known (ofFirst.join_exact law image)
      have renamed := next.equiv
        (((Equiv.refl Start).prodCongr (Fin.consEquiv fun _ : Fin (count + 1) => Roll).symm).trans
          (Equiv.prodAssoc Start Roll (Fin count → Roll)).symm)
      rw [List.replicate_succ, List.foldl_cons]
      convert renamed using 2
      rw [List.ofFn_succ, List.foldl_cons]
      rfl

/-- A positive number of equal distributions has the folded quantity of as many rolls. -/
theorem joinAll (law : IsLaw distribution quantity) (image : A → A → A) (count : Nat) :
    ∃ joined, Distribution.joinAll (List.replicate (count + 1) distribution) image = .ok joined ∧
      IsLaw joined fun roll : Fin (count + 1) → Roll =>
        (List.ofFn fun die : Fin count => quantity (roll die.succ)).foldl image
          (quantity (roll 0)) := by
  refine ⟨_, rfl, ?_⟩
  have folded := (law.foldl_join image count law).equiv
    (Fin.consEquiv fun _ : Fin (count + 1) => Roll).symm
  exact folded

end IsLaw

namespace Distribution

/-- A die with at least one side shows every face equally often. -/
theorem die?_law {sides : Int} (positive : 1 ≤ sides) :
    ∃ die, die? sides = .ok die ∧
      IsLaw die fun face : Fin sides.toNat => (face : Int) + 1 := by
  have cast : (sides.toNat : Rat) = (sides : Rat) := by
    rw [← Int.cast_natCast, Int.toNat_of_nonneg (by omega)]
  have rolled : die? sides = .ok _ := if_neg (by omega)
  refine ⟨_, rolled, die?_ascending rolled, fun weight => ?_, fun value => ?_⟩
  · rw [Event.expectation, List.map_map, ← List.map_coe_finRange_eq_range, List.map_map,
      ← List.ofFn_eq_map, List.sum_ofFn, Fintype.card_fin, Finset.sum_div]
    apply Finset.sum_congr rfl
    intro face _
    rw [cast]
    exact one_div_mul_eq_div _ _
  · simp only [List.map_map, List.mem_map, List.mem_range, Function.comp_apply]
    constructor
    · rintro ⟨index, below, rfl⟩
      exact ⟨⟨index, below⟩, rfl⟩
    · rintro ⟨face, rfl⟩
      exact ⟨face, face.isLt, rfl⟩

end Distribution

/-- The faces of a roll in increasing order. -/
def sortedFaces (faces : List Int) : List Int :=
  faces.mergeSort fun first second => decide (first ≤ second)

theorem sortedFaces_perm (faces : List Int) : (sortedFaces faces).Perm faces :=
  List.mergeSort_perm faces _

theorem sortedFaces_pairwise (faces : List Int) : (sortedFaces faces).Pairwise (· ≤ ·) := by
  refine (List.pairwise_mergeSort ?_ ?_ faces).imp fun related => of_decide_eq_true related
  · intro first second third
    simpa using Int.le_trans
  · intro first second
    simpa using Int.le_total first second

/-- There is one way to sort faces. -/
theorem eq_sortedFaces {faces sorted : List Int} (ordered : sorted.Pairwise (· ≤ ·))
    (same : sorted.Perm faces) : sorted = sortedFaces faces :=
  (same.trans (sortedFaces_perm faces).symm).eq_of_pairwise
    (fun _ _ _ _ => Int.le_antisymm) ordered (sortedFaces_pairwise faces)

namespace DicePool

theorem mergeRolls_pairwise {first second : List Int} (ofFirst : first.Pairwise (· ≤ ·))
    (ofSecond : second.Pairwise (· ≤ ·)) : (mergeRolls first second).Pairwise (· ≤ ·) := by
  have related {faces : List Int} (sorted : faces.Pairwise (· ≤ ·)) :
      faces.Pairwise fun left right => decide (left ≤ right) = true :=
    sorted.imp fun bounded => decide_eq_true bounded
  refine (List.pairwise_merge ?_ ?_ first second (related ofFirst) (related ofSecond)).imp
    fun bounded => of_decide_eq_true bounded
  · intro left middle right
    simpa using Int.le_trans
  · intro left right
    simpa using Int.le_total left right

/-- Merging single faces into a sorted roll sorts them all. -/
theorem foldl_mergeRolls (faces sorted : List Int) (ordered : sorted.Pairwise (· ≤ ·)) :
    (faces.map fun face => [face]).foldl mergeRolls sorted = sortedFaces (sorted ++ faces) := by
  induction faces generalizing sorted with
  | nil => exact eq_sortedFaces ordered (by simp)
  | cons face rest known =>
      rw [List.map_cons, List.foldl_cons,
        known _ (mergeRolls_pairwise ordered (List.pairwise_singleton _ face))]
      refine eq_sortedFaces (sortedFaces_pairwise _) ((sortedFaces_perm _).trans ?_)
      have merged : (mergeRolls sorted [face]).Perm (sorted ++ [face]) := List.merge_perm_append _
      simpa using merged.append_right rest

/-- Carrying sorted rolls gives the law of the sorted faces. -/
theorem sortedRolls_law {sides : Nat} {die : Distribution Int}
    (law : IsLaw die fun face : Fin sides => (face : Int) + 1) {count : Nat} (positive : 0 < count) :
    ∃ rolls, sortedRolls count die = .ok rolls ∧
      IsLaw rolls fun roll : Fin count → Fin sides =>
        sortedFaces (List.ofFn fun die => (roll die : Int) + 1) := by
  obtain ⟨others, rfl⟩ := Nat.exists_eq_succ_of_ne_zero positive.ne'
  obtain ⟨rolls, joined, lawful⟩ := (law.map_exact fun face => [face]).joinAll mergeRolls others
  refine ⟨rolls, joined, ?_⟩
  convert lawful using 2 with roll
  have merged := foldl_mergeRolls (List.ofFn fun die : Fin others => (roll die.succ : Int) + 1)
    [(roll 0 : Int) + 1] (List.pairwise_singleton _ _)
  rw [List.map_ofFn] at merged
  rw [List.ofFn_succ]
  exact merged.symm

/-- Adding up dice one at a time gives the law of the sum of the faces. -/
theorem joinAll_law {sides : Nat} {die : Distribution Int}
    (law : IsLaw die fun face : Fin sides => (face : Int) + 1) {count : Nat} (positive : 0 < count) :
    ∃ sums, Distribution.joinAll (List.replicate count die) (fun left right => left + right) =
        .ok sums ∧
      IsLaw sums fun roll : Fin count → Fin sides =>
        (List.ofFn fun die => (roll die : Int) + 1).sum := by
  obtain ⟨others, rfl⟩ := Nat.exists_eq_succ_of_ne_zero positive.ne'
  obtain ⟨sums, joined, lawful⟩ := law.joinAll (fun left right => left + right) others
  refine ⟨sums, joined, ?_⟩
  convert lawful using 2 with roll
  rw [List.ofFn_succ, List.sum_eq_foldl, List.foldl_cons, zero_add]

/-- A pool is valid when its numbers lie in their domains and its greatest sum is representable. -/
structure Valid (pool : DicePool) : Prop where
  count : 0 ≤ pool.count
  sides : 1 ≤ pool.sides
  range : pool.count * pool.sides ≤ greatestInteger
  kept : ∀ rollEnd number, pool.kept = some (rollEnd, number) → 1 ≤ number ∧ number < pool.count

/-- A roll gives one of the sides to each of the dice. -/
abbrev Roll (pool : DicePool) : Type :=
  Fin pool.count.toNat → Fin pool.sides.toNat

/-- The faces of the sides are numbered from one. -/
def faces (pool : DicePool) (roll : pool.Roll) : List Int :=
  List.ofFn fun die => (roll die : Int) + 1

/-- A roll counts with the sum of its faces, or of the largest or the smallest of them. -/
def rollSum (pool : DicePool) (roll : pool.Roll) : Int :=
  match pool.kept with
  | none => (pool.faces roll).sum
  | some (.highest, number) =>
      (((pool.faces roll).mergeSort fun first second => decide (second ≤ first)).take
        number.toNat).sum
  | some (.lowest, number) =>
      (((pool.faces roll).mergeSort fun first second => decide (first ≤ second)).take
        number.toNat).sum

theorem mem_faces {pool : DicePool} {roll : pool.Roll} {face : Int}
    (member : face ∈ pool.faces roll) : 1 ≤ face ∧ face ≤ pool.sides := by
  obtain ⟨die, rfl⟩ := List.mem_ofFn.1 member
  have below := (roll die).isLt
  omega

/-- Numbers between two bounds sum to a number between as many times these bounds. -/
theorem sum_bounds {numbers : List Int} {least greatest : Int}
    (inside : ∀ number ∈ numbers, least ≤ number ∧ number ≤ greatest) :
    numbers.length * least ≤ numbers.sum ∧ numbers.sum ≤ numbers.length * greatest := by
  have below := List.card_nsmul_le_sum numbers least fun number member => (inside number member).1
  have above := List.sum_le_card_nsmul numbers greatest fun number member => (inside number member).2
  rw [nsmul_eq_mul] at below above
  exact ⟨below, above⟩

/-- Some faces of a pool sum to no more than the product of count and sides. -/
theorem sum_few {faces : List Int} {count sides : Int} (natural : 0 ≤ sides)
    (inside : ∀ face ∈ faces, 1 ≤ face ∧ face ≤ sides) (few : faces.length ≤ count) :
    0 ≤ faces.sum ∧ faces.sum ≤ count * sides := by
  have bounds := sum_bounds inside
  have product : (faces.length : Int) * sides ≤ count * sides :=
    Int.mul_le_mul_of_nonneg_right few natural
  omega

/-- What a roll counts with is never greater than the product of count and sides. -/
theorem Valid.rollSum_representable {pool : DicePool} (valid : pool.Valid) (roll : pool.Roll) :
    Representable (pool.rollSum roll) := by
  have bounded {chosen : List Int} (some : ∀ face ∈ chosen, face ∈ pool.faces roll)
      (few : chosen.length ≤ (pool.faces roll).length) : Representable chosen.sum := by
    have sided := valid.sides
    have count : ((pool.faces roll).length : Int) = pool.count := by
      rw [faces, List.length_ofFn, Int.toNat_of_nonneg valid.count]
    obtain ⟨natural, bounded⟩ : 0 ≤ chosen.sum ∧ chosen.sum ≤ pool.count * pool.sides :=
      sum_few (by omega) (fun face member => mem_faces (some face member)) (by omega)
    exact ⟨Int.le_trans (by decide) natural, Int.le_trans bounded valid.range⟩
  unfold rollSum
  split
  · exact bounded (fun _ member => member) (Nat.le_refl _)
  · refine bounded (fun face member => ?_) (by simp)
    exact (List.mergeSort_perm _ _).mem_iff.1 (List.mem_of_mem_take member)
  · refine bounded (fun face member => ?_) (by simp)
    exact (List.mergeSort_perm _ _).mem_iff.1 (List.mem_of_mem_take member)

/-- The fault of the first condition that holds is reported. -/
def Refuses (conditions : List (Prop × Fault)) (fault : Fault) : Prop :=
  IsFirst (fun condition reported => condition.1 ∧ condition.2 = reported) conditions fault

theorem refuses_single {condition : Prop × Fault} {fault : Fault} :
    Refuses [condition] fault ↔ condition.1 ∧ condition.2 = fault := by
  simp [Refuses, isFirst_cons, isFirst_nil]

theorem refuses_append {conditions more : List (Prop × Fault)} {fault : Fault} :
    Refuses (conditions ++ more) fault ↔ Refuses conditions fault ∨
      (∀ other, ¬Refuses conditions other) ∧ Refuses more fault :=
  isFirst_append

theorem exists_refuses_iff {conditions : List (Prop × Fault)} :
    (∃ fault, Refuses conditions fault) ↔ ∃ condition ∈ conditions, condition.1 := by
  simp [Refuses, exists_isFirst_iff]

/-- These conditions keep a count and a number of sides from making a pool. -/
def rangeConditions (count sides : Int) : List (Prop × Fault) :=
  [(count < 0, .outsideDomain .diceCount count),
    (sides < 1, .outsideDomain .dieSides sides),
    (greatestInteger < count * sides, .overflow .multiply count sides)]

/-- A pool that keeps some of its dice has one condition more. -/
def keptConditions (count sides number : Int) : List (Prop × Fault) :=
  rangeConditions count sides ++ [(number < 1 ∨ count ≤ number, .outsideDomain .keptDice number)]

section Conditions

variable {count sides : Int} {fault : Fault}

theorem checkRange_eq_error_iff :
    checkRange count sides = .error fault ↔ Refuses (rangeConditions count sides) fault := by
  simp only [Refuses, rangeConditions, isFirst_cons, isFirst_nil, checkRange]
  by_cases negative : count < 0
  · simp [negative]
  · by_cases small : sides < 1
    · simp [negative, small]
    · have product : 0 ≤ count * sides := Int.mul_nonneg (by omega) (by omega)
      have bounded : Representable (count * sides) ↔ ¬greatestInteger < count * sides := by
        rw [Representable, Int.not_lt]
        exact and_iff_right (Int.le_trans (by decide) product)
      by_cases large : greatestInteger < count * sides <;> simp [negative, small, bounded, large]

theorem checkRange_ok_iff :
    checkRange count sides = .ok () ↔
      0 ≤ count ∧ 1 ≤ sides ∧ count * sides ≤ greatestInteger := by
  have refused : (∃ fault, checkRange count sides = .error fault) ↔
      count < 0 ∨ sides < 1 ∨ greatestInteger < count * sides := by
    simp only [checkRange_eq_error_iff, exists_refuses_iff]
    simp [rangeConditions]
  cases checked : checkRange count sides with
  | error fault =>
      have outside := refused.1 ⟨fault, checked⟩
      simp only [reduceCtorEq, false_iff]
      omega
  | ok accepted =>
      have inside : ¬(count < 0 ∨ sides < 1 ∨ greatestInteger < count * sides) := by
        rw [← refused, checked]
        simp
      simp only [true_iff]
      omega

end Conditions

/-- The sorted end of a roll holds its largest or its smallest faces. -/
theorem faceSum_keep (faces : List Int) (rollEnd : RollEnd) (number : Nat) :
    faceSum (rollEnd.keep number (sortedFaces faces)) =
      match rollEnd with
      | .highest =>
          ((faces.mergeSort fun first second => decide (second ≤ first)).take number).sum
      | .lowest =>
          ((faces.mergeSort fun first second => decide (first ≤ second)).take number).sum := by
  cases rollEnd with
  | lowest => rfl
  | highest =>
      have descending : (faces.mergeSort fun first second => decide (second ≤ first)).reverse =
          sortedFaces faces := by
        refine eq_sortedFaces (List.pairwise_reverse.2 ?_)
          ((List.reverse_perm _).trans (List.mergeSort_perm faces _))
        refine (List.pairwise_mergeSort ?_ ?_ faces).imp fun related => of_decide_eq_true related
        · intro first second third above below
          simp only [decide_eq_true_eq] at above below ⊢
          exact Int.le_trans below above
        · intro first second
          simpa using Int.le_total second first
      rw [← descending]
      generalize faces.mergeSort (fun first second => decide (second ≤ first)) = sorted
      have taken : sorted.take (sorted.length - (sorted.length - number)) = sorted.take number := by
        rcases Nat.le_total number sorted.length with inside | beyond
        · rw [Nat.sub_sub_self inside]
        · rw [List.take_of_length_le beyond, List.take_of_length_le (by omega)]
      rw [RollEnd.keep, List.length_reverse, List.drop_reverse, taken]
      exact List.sum_reverse _

theorem sumDistribution_law {count sides : Int} (counted : 0 ≤ count) (sided : 1 ≤ sides)
    (inRange : count * sides ≤ greatestInteger) :
    ∃ sums, sumDistribution count sides = .ok sums ∧
      IsLaw sums fun roll : Fin count.toNat → Fin sides.toNat =>
        (List.ofFn fun die => (roll die : Int) + 1).sum := by
  have checked := checkRange_ok_iff.2 ⟨counted, sided, inRange⟩
  obtain ⟨die, rolled, law⟩ := Distribution.die?_law sided
  rcases Int.lt_or_eq_of_le counted with positive | rfl
  · obtain ⟨sums, joined, lawful⟩ := joinAll_law law (show 0 < count.toNat by omega)
    refine ⟨sums, ?_, lawful⟩
    rw [sumDistribution, checked, rolled, ← joined]
    simp [bind, Except.bind, positive.ne']
  · refine ⟨.certain 0, by rw [sumDistribution, checked]; rfl, ?_⟩
    have unrolled : IsEmpty (Fin (Int.toNat 0)) := Fin.isEmpty
    exact (IsLaw.certain 0).equiv (Equiv.equivPUnit _)

theorem keptDistribution_law {count sides number : Int} (sided : 1 ≤ sides)
    (inRange : count * sides ≤ greatestInteger) (rollEnd : RollEnd) (kept : 1 ≤ number)
    (left : number < count) :
    ∃ sums, keptDistribution count sides rollEnd number = .ok sums ∧
      IsLaw sums fun roll : Fin count.toNat → Fin sides.toNat =>
        faceSum (rollEnd.keep number.toNat
          (sortedFaces (List.ofFn fun die => (roll die : Int) + 1))) := by
  have checked := checkRange_ok_iff.2 ⟨by omega, sided, inRange⟩
  obtain ⟨die, rolled, law⟩ := Distribution.die?_law sided
  obtain ⟨rolls, joined, lawful⟩ := sortedRolls_law law (show 0 < count.toNat by omega)
  refine ⟨_, ?_, lawful.map_exact fun roll =>
    faceSum (rollEnd.keep number.toNat roll)⟩
  have inside : ¬(number < 1 ∨ count ≤ number) := by omega
  rw [keptDistribution, checked, rolled]
  simp [bind, Except.bind, inside, joined, pure, Except.pure]

/-- A valid pool has the law of the sum that its rolls count with. -/
theorem Valid.law {pool : DicePool} (valid : pool.Valid) :
    ∃ sums, pool.distribution = .ok sums ∧ IsLaw sums pool.rollSum := by
  obtain ⟨count, sides, kept⟩ := pool
  cases kept with
  | none => exact sumDistribution_law valid.count valid.sides valid.range
  | some chosen =>
      obtain ⟨rollEnd, number⟩ := chosen
      obtain ⟨atLeast, below⟩ := valid.kept rollEnd number rfl
      obtain ⟨sums, made, lawful⟩ :=
        keptDistribution_law valid.sides valid.range rollEnd atLeast below
      refine ⟨sums, made, ?_⟩
      convert lawful using 2 with roll
      rw [faceSum_keep]
      cases rollEnd <;> rfl

section Faults

variable {count sides number : Int} {rollEnd : RollEnd} {fault : Fault}

/-- A plain pool in the accepted range has a distribution. -/
theorem sumDistribution_eq_error_iff :
    sumDistribution count sides = .error fault ↔ Refuses (rangeConditions count sides) fault := by
  rw [← checkRange_eq_error_iff]
  cases checked : checkRange count sides with
  | error other =>
      rw [sumDistribution, checked]
      simp [bind, Except.bind]
  | ok accepted =>
      obtain ⟨counted, sided, inRange⟩ := checkRange_ok_iff.1 checked
      obtain ⟨sums, made, -⟩ := sumDistribution_law counted sided inRange
      simp [made]

/-- A pool in the accepted range that keeps and leaves out some dice has a distribution. -/
theorem keptDistribution_eq_error_iff :
    keptDistribution count sides rollEnd number = .error fault ↔
      Refuses (keptConditions count sides number) fault := by
  rw [keptConditions, refuses_append, refuses_single]
  simp only [← checkRange_eq_error_iff]
  cases checked : checkRange count sides with
  | error other =>
      rw [keptDistribution, checked]
      simp [bind, Except.bind]
  | ok accepted =>
      obtain ⟨counted, sided, inRange⟩ := checkRange_ok_iff.1 checked
      by_cases outside : number < 1 ∨ count ≤ number
      · rw [keptDistribution, checked]
        simp [bind, Except.bind, outside, throw, throwThe, MonadExceptOf.throw]
      · have kept : 1 ≤ number := by omega
        have fewer : number < count := by omega
        obtain ⟨sums, made, -⟩ := keptDistribution_law sided inRange rollEnd kept fewer
        simp [made, outside]

/-- A plain pool has no distribution when its numbers are outside their domains or too large. -/
theorem exists_sumDistribution_error_iff :
    (∃ fault, sumDistribution count sides = .error fault) ↔
      count < 0 ∨ sides < 1 ∨ greatestInteger < count * sides := by
  simp only [sumDistribution_eq_error_iff, exists_refuses_iff]
  simp [rangeConditions]

theorem exists_keptDistribution_error_iff :
    (∃ fault, keptDistribution count sides rollEnd number = .error fault) ↔
      count < 0 ∨ sides < 1 ∨ greatestInteger < count * sides ∨ number < 1 ∨ count ≤ number := by
  simp only [keptDistribution_eq_error_iff, exists_refuses_iff]
  simp [keptConditions, rangeConditions]

end Faults

/-- Only a valid pool has a distribution. -/
theorem valid_of_distribution {pool : DicePool} {sums : Distribution Int}
    (made : pool.distribution = .ok sums) : pool.Valid := by
  obtain ⟨count, sides, kept⟩ := pool
  cases kept with
  | none =>
      have accepted : sumDistribution count sides = .ok sums := made
      have inside : ¬(count < 0 ∨ sides < 1 ∨ greatestInteger < count * sides) := by
        rw [← exists_sumDistribution_error_iff, accepted]
        simp
      have counted : 0 ≤ count := by omega
      have sided : 1 ≤ sides := by omega
      have inRange : count * sides ≤ greatestInteger := by omega
      exact ⟨counted, sided, inRange, by simp⟩
  | some chosen =>
      obtain ⟨rollEnd, number⟩ := chosen
      have accepted : keptDistribution count sides rollEnd number = .ok sums := made
      have inside : ¬(count < 0 ∨ sides < 1 ∨ greatestInteger < count * sides ∨ number < 1 ∨
          count ≤ number) := by
        rw [← exists_keptDistribution_error_iff, accepted]
        simp
      have counted : 0 ≤ count := by omega
      have sided : 1 ≤ sides := by omega
      have inRange : count * sides ≤ greatestInteger := by omega
      have keeps : 1 ≤ number ∧ number < count := by omega
      refine ⟨counted, sided, inRange, ?_⟩
      rintro _ _ ⟨⟩
      exact keeps

/-- Every reported fault is that of a condition. -/
theorem Refuses.exists_mem {conditions : List (Prop × Fault)} {fault : Fault}
    (refused : Refuses conditions fault) : ∃ condition ∈ conditions, condition.2 = fault := by
  obtain ⟨before, condition, after, rfl, -, -, reported⟩ := refused
  exact ⟨condition, by simp, reported⟩

theorem rangeConditions_isCalculation {count sides : Int} :
    ∀ condition ∈ rangeConditions count sides, condition.2.IsCalculation := by
  simp [rangeConditions, Fault.IsCalculation.outsideDomain, Fault.IsCalculation.overflow]

theorem keptConditions_isCalculation {count sides number : Int} :
    ∀ condition ∈ keptConditions count sides number, condition.2.IsCalculation := by
  intro condition member
  rcases List.mem_append.1 member with range | kept
  · exact rangeConditions_isCalculation condition range
  · rw [List.mem_singleton.1 kept]
    exact .outsideDomain _ _

theorem distribution_error {pool : DicePool} {fault : Fault}
    (failed : pool.distribution = .error fault) : fault.IsCalculation := by
  obtain ⟨count, sides, kept⟩ := pool
  cases kept with
  | none =>
      obtain ⟨condition, member, rfl⟩ := (sumDistribution_eq_error_iff.1 failed).exists_mem
      exact rangeConditions_isCalculation condition member
  | some chosen =>
      obtain ⟨condition, member, rfl⟩ := (keptDistribution_eq_error_iff.1 failed).exists_mem
      exact keptConditions_isCalculation condition member

end DicePool

end DiceOdds
