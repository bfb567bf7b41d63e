import DiceOdds.Proofs.PoolLaw

/-
This file counts the rolls of a pool. The outcomes are all integers from the least total to the
greatest one, and each of them has the share of the tuples of faces with this total.
-/

namespace DiceOdds

open Finset

namespace Distribution

/-- The outcomes of an ascending distribution and their probabilities are all of it. -/
theorem Ascending.events_eq {A : Type} [Ord A] [Std.TransOrd A] {distribution : Distribution A}
    (ascending : distribution.Ascending) :
    distribution.events =
      distribution.values.map fun value => ⟨value, distribution.probability value⟩ := by
  rw [values, List.map_map]
  refine (List.map_id _).symm.trans (List.map_congr_left fun event member => ?_)
  rw [Function.comp_apply, ascending.probability_eq member]
  rfl

/-- Integers that ascend are those of a finite set in order. -/
theorem Ascending.values_eq {distribution : Distribution Int} (ascending : distribution.Ascending)
    {range : Finset Int} (same : ∀ value, value ∈ distribution.values ↔ value ∈ range) :
    distribution.values = range.sort := by
  have increasing : distribution.values.Pairwise (· < ·) :=
    List.pairwise_map.2 (ascending.imp fun less => compare_lt_iff_lt.1 less)
  refine increasing.eq_of_mem_iff range.sortedLT_sort.pairwise fun value => ?_
  rw [same, Finset.mem_sort]

end Distribution

/-- These are the tuples of faces that a number of dice can show. -/
noncomputable def faceTuples (count : Nat) (sides : Int) : Finset (Fin count → Int) :=
  Fintype.piFinset fun _ => Icc 1 sides

/-- This is the share of the tuples of faces that have a given total. -/
noncomputable def faceShare (count : Nat) (sides : Int) (total : (Fin count → Int) → Int)
    (value : Int) : Rat :=
  (#{faces ∈ faceTuples count sides | total faces = value} : Rat) / (sides : Rat) ^ count

section Tuples

variable {count : Nat} {sides : Int}

theorem mem_faceTuples {faces : Fin count → Int} :
    faces ∈ faceTuples count sides ↔ ∀ die, 1 ≤ faces die ∧ faces die ≤ sides := by
  simp [faceTuples]

/-- The faces of the sides are numbered from one. -/
theorem mem_faceTuples_iff_exists {faces : Fin count → Int} :
    faces ∈ faceTuples count sides ↔
      ∃ roll : Fin count → Fin sides.toNat, (fun die => (roll die : Int) + 1) = faces := by
  rw [mem_faceTuples]
  constructor
  · intro inside
    refine ⟨fun die => ⟨(faces die - 1).toNat, ?_⟩, funext fun die => ?_⟩
    · have bounds := inside die
      omega
    · have bounds := inside die
      dsimp only
      omega
  · rintro ⟨roll, rfl⟩ die
    have below := (roll die).isLt
    dsimp only
    omega

/-- A property holds for as many tuples of faces as for rolls of sides. -/
theorem card_faceTuples_filter (property : (Fin count → Int) → Prop) [DecidablePred property] :
    #{faces ∈ faceTuples count sides | property faces} =
      #{roll : Fin count → Fin sides.toNat | property fun die => (roll die : Int) + 1} := by
  symm
  refine card_bij (fun roll _ die => (roll die : Int) + 1) ?_ ?_ ?_
  · intro roll member
    exact mem_filter.2 ⟨mem_faceTuples_iff_exists.2 ⟨roll, rfl⟩, (mem_filter.1 member).2⟩
  · intro first _ second _ same
    funext die
    have equal := congrFun same die
    exact Fin.ext (by simpa using equal)
  · intro faces member
    obtain ⟨inside, holds⟩ := mem_filter.1 member
    obtain ⟨roll, rfl⟩ := mem_faceTuples_iff_exists.1 inside
    exact ⟨roll, mem_filter.2 ⟨mem_univ roll, holds⟩, rfl⟩

/-- A list of faces is the list of a tuple. -/
theorem exists_faceTuple {faces : List Int} (length : faces.length = count)
    (inside : ∀ face ∈ faces, 1 ≤ face ∧ face ≤ sides) :
    ∃ tuple ∈ faceTuples count sides, List.ofFn tuple = faces := by
  subst length
  exact ⟨faces.get, mem_faceTuples.2 fun die => inside _ (List.get_mem _ _), List.ofFn_get faces⟩

/-- A law of the rolls of a pool gives every total its share of the tuples. -/
theorem IsLaw.probability_eq_faceShare {sums : Distribution Int} {total : (Fin count → Int) → Int}
    (sided : 0 ≤ sides)
    (law : IsLaw sums fun roll : Fin count → Fin sides.toNat =>
      total fun die => (roll die : Int) + 1) (value : Int) :
    sums.probability value = faceShare count sides total value := by
  have cast : (sides.toNat : Rat) = (sides : Rat) := by
    rw [← Int.cast_natCast, Int.toNat_of_nonneg sided]
  rw [law.probability_eq, faceShare, card_faceTuples_filter, Fintype.card_fun, Fintype.card_fin,
    Fintype.card_fin, Nat.cast_pow, cast]
  simp only [Std.LawfulEqOrd.compare_eq_iff_eq]

end Tuples

section Totals

variable {sides : Int}

/-- Every integer between the bounds for a number of faces is the sum of as many faces. -/
theorem exists_faces_of_sum (sided : 1 ≤ sides) (number : Nat) {total : Int}
    (least : number ≤ total) (greatest : total ≤ number * sides) :
    ∃ faces : List Int, faces.length = number ∧ (∀ face ∈ faces, 1 ≤ face ∧ face ≤ sides) ∧
      faces.sum = total := by
  induction number generalizing total with
  | zero => exact ⟨[], rfl, by simp, by simp at *; omega⟩
  | succ number known =>
      -- The first die shows as much as it can and leaves at least one for every other die.
      let face := min sides (total - number)
      have product : ((number + 1 : Nat) : Int) * sides = number * sides + sides := by
        push_cast
        ring
      have enough : (number : Int) ≤ number * sides :=
        le_mul_of_one_le_right (by omega) sided
      rw [product] at greatest
      push_cast at least
      obtain ⟨faces, length, inside, sum⟩ := @known (total - face) (by omega) (by omega)
      refine ⟨face :: faces, by simp [length], List.forall_mem_cons.2 ⟨by omega, inside⟩, ?_⟩
      rw [List.sum_cons, sum]
      omega

end Totals

namespace RollEnd

/-- Of two faces one is nearer to the end unless they are equal. -/
def Nearer (rollEnd : RollEnd) (first second : Int) : Prop :=
  match rollEnd with
  | .highest => second ≤ first
  | .lowest => first ≤ second

instance (rollEnd : RollEnd) : DecidableRel rollEnd.Nearer := fun first second =>
  match rollEnd with
  | .highest => inferInstanceAs (Decidable (second ≤ first))
  | .lowest => inferInstanceAs (Decidable (first ≤ second))

instance (rollEnd : RollEnd) : Std.Total rollEnd.Nearer where
  total first second := by
    cases rollEnd with
    | highest => exact Int.le_total second first
    | lowest => exact Int.le_total first second

instance (rollEnd : RollEnd) : IsTrans Int rollEnd.Nearer where
  trans first second third before after := by
    cases rollEnd with
    | highest => exact Int.le_trans after before
    | lowest => exact Int.le_trans before after

instance (rollEnd : RollEnd) : Std.Antisymm rollEnd.Nearer where
  antisymm first second before after := by
    cases rollEnd with
    | highest => exact Int.le_antisymm after before
    | lowest => exact Int.le_antisymm before after

/-- This is the sum of the largest or of the smallest faces. -/
def keptSum (rollEnd : RollEnd) (number : Nat) (faces : List Int) : Int :=
  ((faces.insertionSort rollEnd.Nearer).take number).sum

/-- The kept end of a sorted roll has this sum. -/
theorem faceSum_keep_eq (rollEnd : RollEnd) (number : Nat) (faces : List Int) :
    faceSum (rollEnd.keep number (sortedFaces faces)) = rollEnd.keptSum number faces := by
  rw [DicePool.faceSum_keep, keptSum, ← List.mergeSort_eq_insertionSort]
  cases rollEnd <;> rfl

/-- Faces that are nearer to the end than all others are the kept ones. -/
theorem keptSum_append {rollEnd : RollEnd} {kept others : List Int}
    (nearer : ∀ face ∈ kept, ∀ other ∈ others, rollEnd.Nearer face other) :
    rollEnd.keptSum kept.length (kept ++ others) = kept.sum := by
  let sort (faces : List Int) : List Int := faces.insertionSort rollEnd.Nearer
  have perm (faces : List Int) : (sort faces).Perm faces := List.perm_insertionSort _ faces
  have ordered (faces : List Int) : (sort faces).Pairwise rollEnd.Nearer :=
    List.pairwise_insertionSort _ faces
  have sorted : sort (kept ++ others) = sort kept ++ sort others := by
    refine List.Perm.eq_of_pairwise' (ordered _) (List.pairwise_append.2
      ⟨ordered kept, ordered others, fun face ofKept other ofOthers => ?_⟩)
      ((perm _).trans ((perm kept).append (perm others)).symm)
    exact nearer face ((perm kept).mem_iff.1 ofKept) other ((perm others).mem_iff.1 ofOthers)
  change ((sort (kept ++ others)).take kept.length).sum = kept.sum
  rw [sorted, List.take_left' (perm kept).length_eq, (perm kept).sum_eq]

/-- All faces together have their sum. -/
theorem keptSum_length (rollEnd : RollEnd) (faces : List Int) :
    rollEnd.keptSum faces.length faces = faces.sum := by
  have all : rollEnd.keptSum faces.length (faces ++ []) = faces.sum := keptSum_append (by simp)
  rwa [List.append_nil] at all

theorem keptSum_bounds (rollEnd : RollEnd) {faces : List Int} {sides : Int}
    (inside : ∀ face ∈ faces, 1 ≤ face ∧ face ≤ sides) {number : Nat}
    (enough : number ≤ faces.length) :
    number ≤ rollEnd.keptSum number faces ∧ rollEnd.keptSum number faces ≤ number * sides := by
  have kept : ∀ face ∈ (faces.insertionSort rollEnd.Nearer).take number, 1 ≤ face ∧ face ≤ sides :=
    fun face member => inside face ((List.mem_insertionSort _).1 (List.mem_of_mem_take member))
  have length : ((faces.insertionSort rollEnd.Nearer).take number).length = number := by
    simp [enough]
  have bounds := DicePool.sum_bounds kept
  rwa [length, mul_one] at bounds

/-- This is the face that is farthest from the end. -/
def farthest (rollEnd : RollEnd) (sides : Int) : Int :=
  match rollEnd with
  | .highest => 1
  | .lowest => sides

theorem farthest_inside {sides : Int} (sided : 1 ≤ sides) (rollEnd : RollEnd) :
    1 ≤ rollEnd.farthest sides ∧ rollEnd.farthest sides ≤ sides := by
  cases rollEnd <;> simp [farthest, sided]

theorem nearer_farthest (rollEnd : RollEnd) {face sides : Int} (inside : 1 ≤ face ∧ face ≤ sides) :
    rollEnd.Nearer face (rollEnd.farthest sides) := by
  cases rollEnd with
  | highest => exact inside.1
  | lowest => exact inside.2

/-- The kept faces sum to any integer between the bounds for their number, and to no other. -/
theorem exists_keptSum_iff {count number : Nat} {sides : Int} (sided : 1 ≤ sides)
    (rollEnd : RollEnd) (enough : number ≤ count) {value : Int} :
    (∃ faces ∈ faceTuples count sides, rollEnd.keptSum number (List.ofFn faces) = value) ↔
      value ∈ Icc (number : Int) (number * sides) := by
  rw [mem_Icc]
  constructor
  · rintro ⟨faces, member, rfl⟩
    refine rollEnd.keptSum_bounds (fun face listed => ?_) (by simpa using enough)
    obtain ⟨die, rfl⟩ := List.mem_ofFn.1 listed
    exact mem_faceTuples.1 member die
  · rintro ⟨least, greatest⟩
    -- The kept dice have the sum, and all others show the face that is farthest from their end.
    obtain ⟨kept, rfl, inside, sum⟩ := exists_faces_of_sum sided number least greatest
    let others := List.replicate (count - kept.length) (rollEnd.farthest sides)
    have same : ∀ other ∈ others, other = rollEnd.farthest sides :=
      fun other member => List.eq_of_mem_replicate member
    have length : (kept ++ others).length = count := by simp [others, enough]
    obtain ⟨faces, member, listed⟩ := exists_faceTuple length fun face member => by
      rcases List.mem_append.1 member with first | later
      · exact inside face first
      · exact same face later ▸ farthest_inside sided rollEnd
    refine ⟨faces, member, ?_⟩
    rw [listed, keptSum_append, sum]
    intro face first other later
    exact same other later ▸ rollEnd.nearer_farthest (inside face first)

end RollEnd

/-- The law of a total that reaches all integers of a range is given by their shares. -/
theorem IsLaw.events_eq_faceShare {count : Nat} {sides : Int} {sums : Distribution Int}
    {total : (Fin count → Int) → Int} (sided : 0 ≤ sides)
    (law : IsLaw sums fun roll : Fin count → Fin sides.toNat =>
      total fun die => (roll die : Int) + 1) {range : Finset Int}
    (reached : ∀ value, (∃ faces ∈ faceTuples count sides, total faces = value) ↔ value ∈ range) :
    sums.events = range.sort.map fun value => ⟨value, faceShare count sides total value⟩ := by
  have values : sums.values = range.sort := law.ascending.values_eq fun value => by
    rw [← reached]
    refine (law.describes.values value).trans ⟨?_, ?_⟩
    · rintro ⟨roll, same⟩
      exact ⟨_, mem_faceTuples_iff_exists.2 ⟨roll, rfl⟩, same⟩
    · rintro ⟨faces, member, same⟩
      obtain ⟨roll, rfl⟩ := mem_faceTuples_iff_exists.1 member
      exact ⟨roll, same⟩
  rw [law.ascending.events_eq, values]
  simp only [law.probability_eq_faceShare sided]

/-- All dice together sum to any integer between the bounds for their number, and to no other. -/
theorem exists_faceSum_iff {count : Nat} {sides : Int} (sided : 1 ≤ sides) {value : Int} :
    (∃ faces ∈ faceTuples count sides, ∑ die, faces die = value) ↔
      value ∈ Icc (count : Int) (count * sides) := by
  have all (faces : Fin count → Int) :
      RollEnd.highest.keptSum count (List.ofFn faces) = ∑ die, faces die := by
    have total := RollEnd.highest.keptSum_length (List.ofFn faces)
    rwa [List.length_ofFn, List.sum_ofFn] at total
  rw [← RollEnd.exists_keptSum_iff sided .highest (le_refl count)]
  simp only [all]

namespace DicePool

/-- The outcomes of a plain pool are the integers from its count to the product of count and sides,
in increasing order. The probability of each is the number of tuples of faces with this sum over the
number of all tuples. -/
theorem sumDistribution_shares {count sides : Int} (counted : 0 ≤ count) (sided : 1 ≤ sides)
    (inRange : count * sides ≤ greatestInteger) :
    ∃ sums, sumDistribution count sides = .ok sums ∧
      sums.events = (Icc count (count * sides)).sort.map (fun value =>
        ⟨value, faceShare count.toNat sides (fun faces => ∑ die, faces die) value⟩) ∧
      (∀ value, sums.probability value =
        faceShare count.toNat sides (fun faces => ∑ die, faces die) value) ∧
      (sums.size : Int) = count * (sides - 1) + 1 ∧ (count = 0 → sums.values = [0]) := by
  obtain ⟨sums, made, law⟩ := sumDistribution_law counted sided inRange
  simp only [List.sum_ofFn] at law
  have reached (value : Int) : (∃ faces ∈ faceTuples count.toNat sides, ∑ die, faces die = value) ↔
      value ∈ Icc count (count * sides) := by
    rw [exists_faceSum_iff sided, Int.toNat_of_nonneg counted]
  have sided' : 0 ≤ sides := by omega
  have events := law.events_eq_faceShare sided' reached
  refine ⟨sums, made, events, law.probability_eq_faceShare sided', ?_, ?_⟩
  · have grows : count ≤ count * sides := le_mul_of_one_le_right counted sided
    rw [Distribution.size, events, List.length_map, Finset.length_sort, Int.card_Icc, mul_sub, mul_one]
    omega
  · rintro rfl
    rw [Distribution.values, events, List.map_map, zero_mul, Icc_self, Finset.sort_singleton]
    rfl

/-- Three of the eight rolls of three coins have the sum five. -/
theorem sumDistribution_shares_coins :
    (0 : Int) ≤ 3 ∧ (1 : Int) ≤ 2 ∧ (3 * 2 : Int) ≤ greatestInteger ∧
      ∃ sums, sumDistribution 3 2 = .ok sums ∧ sums.size = 4 ∧ sums.probability 5 = 3 / 8 := by
  have inRange : (3 * 2 : Int) ≤ greatestInteger := by decide
  have counted : #{faces ∈ faceTuples 3 2 | ∑ die, faces die = 5} = 3 := by decide +kernel
  have share : faceShare 3 2 (fun faces => ∑ die, faces die) 5 = 3 / 8 := by
    rw [faceShare, counted]
    norm_num
  obtain ⟨sums, made, -, shares, size, -⟩ := sumDistribution_shares (by decide) (by decide) inRange
  exact ⟨by decide, by decide, inRange, sums, made, by omega, (shares 5).trans share⟩

/-- A pool that keeps some of its dice has the integers from the number of kept dice to all their
sides as its outcomes, in increasing order. The probability of each is the number of tuples whose
largest or smallest faces have this sum over the number of all tuples. -/
theorem keptDistribution_shares {count sides number : Int} (rollEnd : RollEnd) (sided : 1 ≤ sides)
    (kept : 1 ≤ number) (fewer : number < count) (inRange : count * sides ≤ greatestInteger) :
    ∃ sums, keptDistribution count sides rollEnd number = .ok sums ∧
      sums.events = (Icc number (number * sides)).sort.map (fun value =>
        ⟨value, faceShare count.toNat sides
          (fun faces => rollEnd.keptSum number.toNat (List.ofFn faces)) value⟩) ∧
      ∀ value, sums.probability value = faceShare count.toNat sides
        (fun faces => rollEnd.keptSum number.toNat (List.ofFn faces)) value := by
  obtain ⟨sums, made, law⟩ := keptDistribution_law sided inRange rollEnd kept fewer
  simp only [RollEnd.faceSum_keep_eq] at law
  have reached (value : Int) : (∃ faces ∈ faceTuples count.toNat sides,
        rollEnd.keptSum number.toNat (List.ofFn faces) = value) ↔
      value ∈ Icc number (number * sides) := by
    rw [RollEnd.exists_keptSum_iff sided rollEnd (by omega), Int.toNat_of_nonneg (by omega)]
  have sided' : 0 ≤ sides := by omega
  exact ⟨sums, made, law.events_eq_faceShare sided' reached, law.probability_eq_faceShare sided'⟩

/-- Four of the eight rolls of three coins show two twos at least, and only one shows three. -/
theorem keptDistribution_shares_coins :
    (1 : Int) ≤ 2 ∧ (2 : Int) < 3 ∧ (3 * 2 : Int) ≤ greatestInteger ∧
      (∃ sums, keptDistribution 3 2 .highest 2 = .ok sums ∧ sums.probability 4 = 1 / 2) ∧
      ∃ sums, keptDistribution 3 2 .lowest 2 = .ok sums ∧ sums.probability 4 = 1 / 8 := by
  have sided : (1 : Int) ≤ 2 := by decide
  have fewer : (2 : Int) < 3 := by decide
  have inRange : (3 * 2 : Int) ≤ greatestInteger := by decide
  have counted :
      #{faces ∈ faceTuples 3 2 | RollEnd.highest.keptSum 2 (List.ofFn faces) = 4} = 4 ∧
        #{faces ∈ faceTuples 3 2 | RollEnd.lowest.keptSum 2 (List.ofFn faces) = 4} = 1 := by
    decide +kernel
  have highest :
      faceShare 3 2 (fun faces => RollEnd.highest.keptSum 2 (List.ofFn faces)) 4 = 1 / 2 := by
    rw [faceShare, counted.1]
    norm_num
  have lowest :
      faceShare 3 2 (fun faces => RollEnd.lowest.keptSum 2 (List.ofFn faces)) 4 = 1 / 8 := by
    rw [faceShare, counted.2]
    norm_num
  obtain ⟨tops, madeTops, -, shareTops⟩ :=
    keptDistribution_shares .highest sided sided fewer inRange
  obtain ⟨bottoms, madeBottoms, -, shareBottoms⟩ :=
    keptDistribution_shares .lowest sided sided fewer inRange
  exact ⟨sided, fewer, inRange, ⟨tops, madeTops, (shareTops 4).trans highest⟩,
    bottoms, madeBottoms, (shareBottoms 4).trans lowest⟩

end DicePool

end DiceOdds
