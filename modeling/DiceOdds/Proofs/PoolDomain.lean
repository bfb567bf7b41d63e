import DiceOdds.Proofs.SortedRoll

/-
This file shows which pools have a distribution and what fault is reported for the others. No sum on
the way to a distribution leaves the range of integers, and every roll has the dice that are kept.
-/

namespace DiceOdds

namespace Distribution

section Operands

variable {A B : Type}

/-- Each of two paired outcomes can occur on its own. -/
theorem mem_values_of_pairs {left : Distribution A} {right : Distribution B} {pair : A × B}
    (member : pair ∈ (left.pairs right).map Event.value) :
    pair.1 ∈ left.values ∧ pair.2 ∈ right.values := by
  obtain ⟨event, inside, rfl⟩ := List.mem_map.1 member
  obtain ⟨first, ofLeft, others⟩ := List.mem_flatMap.1 inside
  obtain ⟨second, ofRight, rfl⟩ := List.mem_map.1 others
  exact ⟨List.mem_map_of_mem ofLeft, List.mem_map_of_mem ofRight⟩

variable [Ord A]

/-- These are all pairs of outcomes to which a fold of joins applies its image. -/
def foldOperands (image : A → A → A) : Distribution A → List (Distribution A) → List (A × A)
  | _, [] => []
  | drawn, next :: rest =>
      (drawn.pairs next).map Event.value ++ foldOperands image (drawn.join next image) rest

/-- These are all pairs of outcomes to which the join of a list applies its image. -/
def joinOperands (image : A → A → A) : List (Distribution A) → List (A × A)
  | [] => []
  | first :: rest => foldOperands image first rest

variable {image other : A → A → A}

theorem join_congr {left right : Distribution A}
    (alike : ∀ pair ∈ (left.pairs right).map Event.value,
      image pair.1 pair.2 = other pair.1 pair.2) :
    left.join right image = left.join right other := by
  rw [join, join]
  congr 1
  apply List.map_congr_left
  intro event member
  rw [alike event.value (List.mem_map_of_mem member)]

theorem foldl_join_congr {rest : List (Distribution A)} {drawn : Distribution A}
    (alike : ∀ pair ∈ foldOperands image drawn rest, image pair.1 pair.2 = other pair.1 pair.2) :
    rest.foldl (fun drawn next => drawn.join next image) drawn =
      rest.foldl (fun drawn next => drawn.join next other) drawn := by
  induction rest generalizing drawn with
  | nil => rfl
  | cons next rest known =>
      obtain ⟨now, later⟩ := List.forall_mem_append.1 alike
      rw [List.foldl_cons, List.foldl_cons, known later, join_congr now]

/-- Images that agree on the operands of a join give the same distribution. -/
theorem joinAll_congr {distributions : List (Distribution A)}
    (alike : ∀ pair ∈ joinOperands image distributions,
      image pair.1 pair.2 = other pair.1 pair.2) :
    joinAll distributions image = joinAll distributions other := by
  cases distributions with
  | nil => rfl
  | cons first rest => exact congrArg Except.ok (foldl_join_congr alike)

end Operands

/-- A distribution lies between two bounds when all of its outcomes do. -/
def Within (least greatest : Int) (distribution : Distribution Int) : Prop :=
  ∀ value ∈ distribution.values, least ≤ value ∧ value ≤ greatest

theorem die?_within {sides : Int} {die : Distribution Int} (rolled : die? sides = .ok die) :
    die.Within 1 sides := by
  unfold die? at rolled
  split at rolled
  · cases rolled
  · cases rolled
    intro value member
    simp only [values, List.map_map, List.mem_map, List.mem_range, Function.comp_apply] at member
    obtain ⟨index, below, rfl⟩ := member
    rw [Int.ofNat_eq_natCast]
    omega

namespace Within

variable {least greatest lower upper : Int} {left right : Distribution Int}

theorem widen {wide : Int} (within : left.Within least greatest) (below : lower ≤ least)
    (above : greatest ≤ wide) : left.Within lower wide := by
  intro value member
  have bounds := within value member
  omega

/-- The sums of two outcomes lie between the sums of the bounds. -/
theorem sum (ofLeft : left.Within least greatest) (ofRight : right.Within lower upper) :
    ∀ pair ∈ (left.pairs right).map Event.value,
      least + lower ≤ pair.1 + pair.2 ∧ pair.1 + pair.2 ≤ greatest + upper := by
  intro pair member
  obtain ⟨first, second⟩ := mem_values_of_pairs member
  have ofFirst := ofLeft pair.1 first
  have ofSecond := ofRight pair.2 second
  omega

theorem join (ofLeft : left.Within least greatest) (ofRight : right.Within lower upper) :
    (left.join right fun first second => first + second).Within (least + lower)
      (greatest + upper) := by
  intro value member
  obtain ⟨event, inside, rfl⟩ := List.mem_map.1 member
  obtain ⟨old, present, same⟩ := mem_values_ofEvents inside
  obtain ⟨pair, ofPairs, rfl⟩ := List.mem_map.1 present
  rw [same]
  exact ofLeft.sum ofRight pair.value (List.mem_map_of_mem ofPairs)

/-- The invariant of a fold: what is drawn lies below as many greatest outcomes as were added. -/
theorem foldOperands_sum {rest : List (Distribution Int)} (natural : 0 ≤ upper)
    (ofDrawn : left.Within 0 greatest) (ofRest : ∀ next ∈ rest, next.Within 0 upper) :
    ∀ pair ∈ foldOperands (fun first second => first + second) left rest,
      0 ≤ pair.1 + pair.2 ∧ pair.1 + pair.2 ≤ greatest + rest.length * upper := by
  induction rest generalizing left greatest with
  | nil => simp [foldOperands]
  | cons next rest known =>
      obtain ⟨ofNext, later⟩ := List.forall_mem_cons.1 ofRest
      have more : greatest + (next :: rest).length * upper =
          greatest + upper + rest.length * upper := by
        rw [List.length_cons]
        push_cast
        ring
      have remaining : 0 ≤ rest.length * upper := Int.mul_nonneg (by omega) natural
      rw [more, foldOperands]
      intro pair member
      rcases List.mem_append.1 member with now | further
      · have bounds := ofDrawn.sum ofNext pair now
        omega
      · have ofJoin := ofDrawn.join ofNext
        rw [add_zero] at ofJoin
        exact known ofJoin later pair further

/-- No sum of outcomes below a bound exceeds this bound times their number. -/
theorem joinOperands_sum (within : left.Within 0 upper) (natural : 0 ≤ upper) (count : Nat) :
    ∀ pair ∈ joinOperands (fun first second => first + second) (List.replicate count left),
      0 ≤ pair.1 + pair.2 ∧ pair.1 + pair.2 ≤ count * upper := by
  cases count with
  | zero => simp [joinOperands]
  | succ count =>
      have product : ((count + 1 : Nat) : Int) * upper = upper + count * upper := by
        push_cast
        ring
      have others : ∀ next ∈ List.replicate count left, next.Within 0 upper := by
        intro next member
        rw [List.eq_of_mem_replicate member]
        exact within
      have bounds := foldOperands_sum natural within others
      rw [List.length_replicate] at bounds
      rw [List.replicate_succ, product]
      exact bounds

end Within

end Distribution

namespace RollEnd

theorem keep_sublist (rollEnd : RollEnd) (number : Nat) (roll : List Int) :
    (rollEnd.keep number roll).Sublist roll := by
  cases rollEnd with
  | highest => exact List.drop_sublist _ roll
  | lowest => exact List.take_sublist _ roll

/-- As many dice are kept as were asked for. -/
theorem length_keep (rollEnd : RollEnd) {number : Nat} {roll : List Int}
    (enough : number ≤ roll.length) : (rollEnd.keep number roll).length = number := by
  cases rollEnd with
  | highest =>
      rw [keep, List.length_drop]
      omega
  | lowest =>
      rw [keep, List.length_take]
      omega

end RollEnd

namespace DicePool

variable {count sides number : Int} {rollEnd : RollEnd}

/-- An addition is safe when it is exact wherever the sum is representable. -/
def SafeAddition (add : Int → Int → Int) : Prop :=
  ∀ left right, Representable (left + right) → add left right = left + right

/-- All sums on the way to the sums of a plain pool are representable, so that every safe addition
leads to the same sums. -/
theorem sumDistribution_representable {sums : Distribution Int}
    (made : sumDistribution count sides = .ok sums) :
    ∃ die, Distribution.die? sides = .ok die ∧
      (∀ pair ∈ Distribution.joinOperands (fun left right => left + right)
          (List.replicate count.toNat die),
        0 ≤ pair.1 + pair.2 ∧ pair.1 + pair.2 ≤ count * sides) ∧
      ∀ add, SafeAddition add → count ≠ 0 →
        Distribution.joinAll (List.replicate count.toNat die) add = .ok sums := by
  obtain ⟨⟨⟩, checked, ran⟩ := Except.bind_eq_ok made
  obtain ⟨counted, sided, inRange⟩ := checkRange_ok_iff.1 checked
  obtain ⟨die, rolled, -⟩ := Distribution.die?_law sided
  have within : die.Within 0 sides :=
    (Distribution.die?_within rolled).widen (by decide) (Int.le_refl sides)
  have bounds := within.joinOperands_sum (by omega) count.toNat
  rw [Int.toNat_of_nonneg counted] at bounds
  refine ⟨die, rolled, bounds, ?_⟩
  intro add safe some
  have joined : Distribution.joinAll (List.replicate count.toNat die)
      (fun left right => left + right) = .ok sums := by
    rw [rolled] at ran
    simpa [bind, Except.bind, some] using ran
  rw [← joined]
  symm
  apply Distribution.joinAll_congr
  intro pair member
  obtain ⟨natural, bounded⟩ := bounds pair member
  have representable : Representable (pair.1 + pair.2) :=
    ⟨Int.le_trans (by decide) natural, Int.le_trans bounded inRange⟩
  exact (safe pair.1 pair.2 representable).symm

/-- Every sorted roll has all dice, the kept ones among them, and no sum of kept dice exceeds the
product of count and sides. -/
theorem keptDistribution_representable {sums : Distribution Int}
    (made : keptDistribution count sides rollEnd number = .ok sums) :
    ∃ die rolls, Distribution.die? sides = .ok die ∧ sortedRolls count.toNat die = .ok rolls ∧
      sums = rolls.map (fun roll => faceSum (rollEnd.keep number.toNat roll)) ∧
      ∀ roll ∈ rolls.values, roll.length = count.toNat ∧
        (∀ face ∈ roll, 1 ≤ face ∧ face ≤ sides) ∧ number.toNat ≤ roll.length ∧
        (rollEnd.keep number.toNat roll).length = number.toNat ∧
        ∀ part : List Int, part.Sublist (rollEnd.keep number.toNat roll) →
          0 ≤ faceSum part ∧ faceSum part ≤ count * sides := by
  have valid : (DicePool.mk count sides (some (rollEnd, number))).Valid := valid_of_distribution made
  have counted : 0 ≤ count := valid.count
  have sided : 1 ≤ sides := valid.sides
  have fewer : number < count := (valid.kept rollEnd number rfl).2
  have kept : 1 ≤ number := (valid.kept rollEnd number rfl).1
  have accepted := checkRange_ok_iff.2 ⟨counted, sided, valid.range⟩
  obtain ⟨die, rolled, law⟩ := Distribution.die?_law sided
  obtain ⟨rolls, carried, lawful⟩ := sortedRolls_law law (show 0 < count.toNat by omega)
  rw [keptDistribution_eq accepted rolled rollEnd kept fewer, carriedRolls_eq le_rfl, carried] at made
  refine ⟨die, rolls, rolled, carried, (Except.ok.inj made).symm, ?_⟩
  intro roll member
  have isRoll := ((Enumerates.of_law (by omega) lawful).values roll).1 member
  have enough : number.toNat ≤ roll.length := by
    rw [isRoll.length]
    omega
  have length := rollEnd.length_keep enough
  refine ⟨isRoll.length, isRoll.faces, enough, length, ?_⟩
  intro part chosen
  have inside : ∀ face ∈ part, 1 ≤ face ∧ face ≤ sides := by
    intro face ofPart
    exact isRoll.faces face ((rollEnd.keep_sublist _ roll).subset (chosen.subset ofPart))
  have few : (part.length : Int) ≤ count := by
    have shorter := chosen.length_le
    omega
  exact sum_few (by omega) inside few

/-- A pool has no distribution exactly when its numbers lie outside their domains or the product of
count and sides is too large, and the first of these conditions is reported. In all other cases no sum
of dice leaves the range of integers, and every roll has the dice that are kept. -/
theorem distribution_domain (count sides : Int) :
    ((∃ fault, sumDistribution count sides = .error fault) ↔
      count < 0 ∨ sides < 1 ∨ greatestInteger < count * sides) ∧
    (∀ fault, sumDistribution count sides = .error fault ↔
      Refuses (rangeConditions count sides) fault) ∧
    (∀ rollEnd number, (∃ fault, keptDistribution count sides rollEnd number = .error fault) ↔
      count < 0 ∨ sides < 1 ∨ greatestInteger < count * sides ∨ number < 1 ∨ count ≤ number) ∧
    (∀ rollEnd number fault, keptDistribution count sides rollEnd number = .error fault ↔
      Refuses (keptConditions count sides number) fault) ∧
    (∀ sums, sumDistribution count sides = .ok sums →
      ∃ die, Distribution.die? sides = .ok die ∧
        (∀ pair ∈ Distribution.joinOperands (fun left right => left + right)
            (List.replicate count.toNat die),
          0 ≤ pair.1 + pair.2 ∧ pair.1 + pair.2 ≤ count * sides) ∧
        ∀ add, SafeAddition add → count ≠ 0 →
          Distribution.joinAll (List.replicate count.toNat die) add = .ok sums) ∧
    ∀ rollEnd number sums, keptDistribution count sides rollEnd number = .ok sums →
      ∃ die rolls, Distribution.die? sides = .ok die ∧ sortedRolls count.toNat die = .ok rolls ∧
        sums = rolls.map (fun roll => faceSum (rollEnd.keep number.toNat roll)) ∧
        ∀ roll ∈ rolls.values, roll.length = count.toNat ∧
          (∀ face ∈ roll, 1 ≤ face ∧ face ≤ sides) ∧ number.toNat ≤ roll.length ∧
          (rollEnd.keep number.toNat roll).length = number.toNat ∧
          ∀ part : List Int, part.Sublist (rollEnd.keep number.toNat roll) →
            0 ≤ faceSum part ∧ faceSum part ≤ count * sides := by
  exact ⟨exists_sumDistribution_error_iff, fun _ => sumDistribution_eq_error_iff,
    fun _ _ => exists_keptDistribution_error_iff, fun _ _ _ => keptDistribution_eq_error_iff,
    fun _ => sumDistribution_representable, fun _ _ _ => keptDistribution_representable⟩

/-- A negative count is reported before missing sides, and a large product before the kept dice. Three
coins have the same sums when additions wrap around. -/
theorem distribution_domain_order :
    sumDistribution (-1) 0 = .error (.outsideDomain .diceCount (-1)) ∧
      keptDistribution 2 greatestInteger .highest 2 =
        .error (.overflow .multiply 2 greatestInteger) ∧
      ∃ sums die, sumDistribution 3 2 = .ok sums ∧ Distribution.die? 2 = .ok die ∧
        Distribution.joinAll (List.replicate 3 die)
          (fun left right => (left + right).bmod (2 ^ 64)) = .ok sums := by
  obtain ⟨-, negative, -⟩ := distribution_domain (-1) 0
  obtain ⟨-, -, -, large, -⟩ := distribution_domain 2 greatestInteger
  obtain ⟨-, -, -, -, safe, -⟩ := distribution_domain 3 2
  have wraps : SafeAddition fun left right => (left + right).bmod (2 ^ 64) := by
    intro left right ⟨least, greatest⟩
    unfold leastInteger at least
    unfold greatestInteger at greatest
    apply Int.bmod_eq_of_le <;> omega
  obtain ⟨sums, made, -⟩ := sumDistribution_law (show (0 : Int) ≤ 3 by decide)
    (show (1 : Int) ≤ 2 by decide) (by decide)
  obtain ⟨die, rolled, -, same⟩ := safe sums made
  refine ⟨?_, ?_, sums, die, made, rolled, same _ wraps (by decide)⟩
  · rw [negative]
    exact ⟨[], _, _, rfl, by simp, by decide, rfl⟩
  · rw [large]
    exact ⟨[_, _], _, _, rfl, by simp; decide, by decide, rfl⟩

end DicePool

end DiceOdds
