import DiceOdds.Proofs.PoolLimits
import Mathlib.Data.Sym.Card

/-
This file shows what the roll count counts. It is the number of sorted rolls as long as every product
on the way is shown, and a limit below the greatest number accepts no pool that has more of them.
-/

namespace DiceOdds

/-- A sorted roll lists faces of equal dice in increasing order. -/
structure IsSortedRoll (dice : Nat) (sides : Int) (roll : List Int) : Prop where
  length : roll.length = dice
  sorted : roll.Pairwise (· ≤ ·)
  faces : ∀ face ∈ roll, 1 ≤ face ∧ face ≤ sides

/-- This roll lists the faces of a multiset of sides; the faces are numbered from one. -/
def rollOfSides {sides : Nat} (chosen : Multiset (Fin sides)) : List Int :=
  (chosen.map fun side : Fin sides => (side : Int) + 1).sort (· ≤ ·)

theorem rollOfSides_injective (sides : Nat) : Function.Injective (@rollOfSides sides) := by
  intro first second same
  have faces := congrArg (fun roll : List Int => (roll : Multiset Int)) same
  simp only [rollOfSides, Multiset.sort_eq] at faces
  refine Multiset.map_injective (fun one other equal => ?_) faces
  exact Fin.ext (by simpa using equal)

/-- The sorted rolls list the multisets of sides. -/
theorem range_rollOfSides (dice : Nat) (sides : Int) :
    (Set.range fun chosen : Sym (Fin sides.toNat) dice => rollOfSides chosen.1) =
      {roll | IsSortedRoll dice sides roll} := by
  ext roll
  constructor
  · rintro ⟨⟨chosen, length⟩, rfl⟩
    refine ⟨by simp [rollOfSides, length], Multiset.pairwise_sort _ _, fun face member => ?_⟩
    obtain ⟨side, -, rfl⟩ := Multiset.mem_map.1 ((Multiset.mem_sort _).1 member)
    have below := side.isLt
    omega
  · rintro ⟨length, sorted, faces⟩
    let side (face : {face // face ∈ roll}) : Fin sides.toNat :=
      ⟨(face.1 - 1).toNat, by have bounds := faces face.1 face.2; omega⟩
    have restored : (roll.attach.map side).map (fun side : Fin sides.toNat => (side : Int) + 1) =
        roll := by
      rw [List.map_map]
      refine (List.map_congr_left fun face _ => ?_).trans roll.attach_map_subtype_val
      have bounds := faces face.1 face.2
      simp only [side, Function.comp_apply]
      omega
    refine ⟨⟨Multiset.ofList (roll.attach.map side), by simp [length]⟩, ?_⟩
    change rollOfSides (Multiset.ofList (roll.attach.map side)) = roll
    rw [rollOfSides, Multiset.map_coe, restored, Multiset.coe_sort]
    exact List.mergeSort_of_pairwise (by simpa using sorted)

/-- The number of sorted rolls is a binomial coefficient. -/
theorem ncard_sortedRolls (dice : Nat) (sides : Int) :
    {roll | IsSortedRoll dice sides roll}.ncard = (dice + sides.toNat - 1).choose dice := by
  have injective : Function.Injective fun chosen : Sym (Fin sides.toNat) dice =>
      rollOfSides chosen.1 :=
    (rollOfSides_injective _).comp Subtype.val_injective
  rw [← range_rollOfSides, Set.ncard_range_of_injective injective, Nat.card_eq_fintype_card,
    Sym.card_sym_eq_choose, Fintype.card_fin, Nat.add_comm]

theorem greatestRollCount_eq : greatestRollCount = 2 ^ 128 - 1 := by
  norm_num [greatestRollCount]

/-- This is the product of a turn before it is divided by the number of the turn. -/
def turnProduct (larger turn : Nat) : Nat :=
  turn * (larger + turn).choose turn

/-- Products increase from turn to turn, so the last one decides whether all of them are shown. -/
theorem turnProduct_mono (larger : Nat) : Monotone (turnProduct larger) := by
  intro first second before
  refine Nat.mul_le_mul before ?_
  rw [← Nat.choose_symm_add, ← Nat.choose_symm_add]
  exact Nat.choose_mono larger (Nat.add_le_add_left before larger)

/-- The count before a turn is multiplied to the product of the turn. -/
theorem choose_mul_eq_turnProduct (larger turn : Nat) :
    (larger + turn).choose turn * (larger + (turn + 1)) = turnProduct larger (turn + 1) := by
  rw [turnProduct, mul_comm, mul_comm (turn + 1)]
  exact Nat.add_one_mul_choose_eq (larger + turn) turn

theorem turnProduct_div (larger turn : Nat) :
    turnProduct larger (turn + 1) / (turn + 1) = (larger + (turn + 1)).choose (turn + 1) :=
  Nat.mul_div_cancel_left _ (Nat.succ_pos turn)

/-- The turns that remain end with a binomial coefficient unless the product of the last one is too
great. -/
theorem extendRollCount_choose (larger remaining turn : Nat) :
    extendRollCount larger remaining (turn + 1) ((larger + turn).choose turn) =
      if remaining = 0 ∨ turnProduct larger (turn + remaining) ≤ greatestRollCount then
        some ((larger + (turn + remaining)).choose (turn + remaining))
      else none := by
  -- A turn that is not shown decides for all that follow it, since their products are greater.
  induction remaining generalizing turn with
  | zero => simp [extendRollCount]
  | succ remaining known =>
      have before : turnProduct larger (turn + 1) ≤ turnProduct larger (turn + (remaining + 1)) :=
        turnProduct_mono larger (by omega)
      have next : turn + 1 + remaining = turn + (remaining + 1) := by omega
      rw [extendRollCount]
      simp only [choose_mul_eq_turnProduct, turnProduct_div, known, next]
      by_cases shown : turnProduct larger (turn + 1) ≤ greatestRollCount
      · rw [if_pos shown]
        rcases remaining with _ | remaining
        · simp [shown]
        · simp
      · rw [if_neg shown, if_neg (by omega)]

/-- A turn of the roll count has the factor that is next and the count so far. Another turn follows as
long as factors remain and the product is shown. -/
inductive RollCountTurn (larger turns : Nat) : (factor count : Nat) → Prop where
  | first : RollCountTurn larger turns 1 1
  | next {factor count : Nat} (before : RollCountTurn larger turns factor count)
      (remains : factor ≤ turns) (shown : count * (larger + factor) ≤ greatestRollCount) :
      RollCountTurn larger turns (factor + 1) (count * (larger + factor) / factor)

namespace RollCountTurn

variable {larger turns factor count : Nat}

/-- Before every turn the count is a binomial coefficient. -/
theorem count_eq (turn : RollCountTurn larger turns factor count) :
    ∃ done, factor = done + 1 ∧ done ≤ turns ∧ count = (larger + done).choose done := by
  induction turn with
  | first => exact ⟨0, rfl, Nat.zero_le turns, by simp⟩
  | next before remains shown known =>
      obtain ⟨done, rfl, -, rfl⟩ := known
      exact ⟨done + 1, rfl, remains, by rw [choose_mul_eq_turnProduct, turnProduct_div]⟩

/-- The turns are those of the calculation: each of them leaves the result to the turns behind it. -/
theorem extendRollCount_eq (turn : RollCountTurn larger turns factor count) :
    extendRollCount larger turns 1 1 =
      extendRollCount larger (turns + 1 - factor) factor count := by
  induction turn with
  | first => rfl
  | @next factor count before remains shown known =>
      obtain ⟨rest, some⟩ := Nat.exists_eq_add_of_le remains
      rw [known, show turns + 1 - factor = rest + 1 by omega,
        show turns + 1 - (factor + 1) = rest by omega, extendRollCount]
      exact if_pos shown

theorem factor_dvd (turn : RollCountTurn larger turns factor count) :
    factor ∣ count * (larger + factor) := by
  obtain ⟨done, rfl, -, rfl⟩ := turn.count_eq
  rw [choose_mul_eq_turnProduct, turnProduct]
  exact Nat.dvd_mul_right _ _

end RollCountTurn

section Pools

variable {count sides : Int} (counted : 1 ≤ count) (sided : 1 ≤ sides)
include counted sided

/-- The turns take as many factors as there are dice or further sides, whichever are fewer. -/
theorem sortedRollCount_eq_extend :
    sortedRollCount count sides = (extendRollCount (max count (sides - 1)).toNat
      (min count (sides - 1)).toNat 1 1).getD greatestRollCount := by
  have positive : ¬(count ≤ 0 ∨ sides ≤ 0) := by omega
  rw [sortedRollCount, if_neg (by simpa using positive)]
  simp only [show max count.toNat (sides - 1).toNat = (max count (sides - 1)).toNat by omega,
    show min count.toNat (sides - 1).toNat = (min count (sides - 1)).toNat by omega]

/-- The roll count is the binomial coefficient as long as the product of the last turn is shown. -/
theorem sortedRollCount_eq :
    let turns := (min count (sides - 1)).toNat
    let rolls := (count + sides - 1).toNat.choose count.toNat
    sortedRollCount count sides =
      if turns * rolls ≤ greatestRollCount then rolls else greatestRollCount := by
  intro turns rolls
  have all : (max count (sides - 1)).toNat + turns = (count + sides - 1).toNat := by omega
  have last : ((max count (sides - 1)).toNat + turns).choose turns = rolls := by
    rcases Int.le_total count (sides - 1) with fewDice | fewSides
    · rw [all, show turns = count.toNat by omega]
    · rw [← Nat.choose_symm_add, all, show (max count (sides - 1)).toNat = count.toNat by omega]
  have ended := extendRollCount_choose (max count (sides - 1)).toNat turns 0
  rw [Nat.choose_zero_right, Nat.zero_add, Nat.zero_add, turnProduct, last] at ended
  rw [sortedRollCount_eq_extend counted sided, ended]
  by_cases shown : turns * rolls ≤ greatestRollCount
  · rw [if_pos (.inr shown), if_pos shown, Option.getD_some]
  · have several : turns ≠ 0 := fun none => shown (by simp [none])
    rw [if_neg (not_or_intro several shown), if_neg shown, Option.getD_none]

theorem sortedRollCount_of_lt (below : sortedRollCount count sides < greatestRollCount) :
    sortedRollCount count sides = (count + sides - 1).toNat.choose count.toNat := by
  have shown := sortedRollCount_eq counted sided
  simp only at shown
  split at shown
  · exact shown
  · exact absurd shown below.ne

/-- A limit below the greatest number holds for the number of sorted rolls itself. -/
theorem choose_le_of_accepted {limits : Limits} {bound : Nat} (limited : limits.rolls = some bound)
    (below : bound < greatestRollCount) (accepted : limits.checkKeptPool count sides = .ok ()) :
    (count + sides - 1).toNat.choose count.toNat ≤ bound := by
  have counts := (Limits.checkKeptPool_eq_ok_iff.1 accepted).2 bound limited
  rwa [sortedRollCount_of_lt counted sided (counts.trans_lt below)] at counts

end Pools

/-- The roll count is the number of sorted rolls, or the greatest number when the product of the last
turn exceeds it. No turn leaves the range or loses a remainder, and a limit below the greatest number
bounds the number of sorted rolls of every pool that is accepted. -/
theorem sortedRollCount_exact {count sides : Int} (counted : 1 ≤ count) (sided : 1 ≤ sides)
    (fewDice : count ≤ greatestInteger) (fewSides : sides ≤ greatestInteger) :
    let turns := (min count (sides - 1)).toNat
    let larger := (max count (sides - 1)).toNat
    let rolls := (count + sides - 1).toNat.choose count.toNat
    sortedRollCount count sides = (if turns * rolls ≤ 2 ^ 128 - 1 then rolls else 2 ^ 128 - 1) ∧
      (∀ factor found, RollCountTurn larger turns factor found →
        sortedRollCount count sides =
            (extendRollCount larger (turns + 1 - factor) factor found).getD (2 ^ 128 - 1) ∧
          (factor ≤ turns → larger + factor ≤ 2 ^ 128 - 1 ∧ 0 < factor ∧
            factor ∣ found * (larger + factor))) ∧
      {roll | IsSortedRoll count.toNat sides roll}.ncard = rolls ∧
      ∀ (limits : Limits) (bound : Nat), limits.rolls = some bound → bound < 2 ^ 128 - 1 →
        limits.checkKeptPool count sides = .ok () → rolls ≤ bound := by
  intro turns larger rolls
  simp only [← greatestRollCount_eq]
  refine ⟨sortedRollCount_eq counted sided,
    fun factor found turn => ⟨?_, fun remains => ⟨?_, ?_, turn.factor_dvd⟩⟩, ?_, ?_⟩
  · rw [← turn.extendRollCount_eq, sortedRollCount_eq_extend counted sided]
  · have small : larger + factor ≤ 2 ^ 64 := by
      simp only [greatestInteger] at fewDice fewSides
      omega
    exact small.trans (by decide)
  · obtain ⟨done, rfl, -⟩ := turn.count_eq
    exact Nat.succ_pos done
  · rw [ncard_sortedRolls, show count.toNat + sides.toNat - 1 = (count + sides - 1).toNat by omega]
  · intro limits bound limited below accepted
    exact choose_le_of_accepted counted sided limited below accepted

/-- Four dice with six sides have 126 sorted rolls, and the product of their second turn is even. For
sixty-three dice with sixty-four sides the last product is too great, although the number of sorted
rolls is not. -/
theorem sortedRollCount_exact_pools :
    (1 : Int) ≤ 4 ∧ (1 : Int) ≤ 6 ∧ (6 : Int) ≤ greatestInteger ∧ (64 : Int) ≤ greatestInteger ∧
      (sortedRollCount 4 6 = 126 ∧ {roll | IsSortedRoll 4 6 roll}.ncard = 126 ∧
        RollCountTurn 5 4 2 6 ∧ 2 ∣ 6 * (5 + 2) ∧
        Limits.standard.checkKeptPool 4 6 = .ok () ∧ Nat.choose 9 4 ≤ 250000) ∧
      sortedRollCount 63 64 = 2 ^ 128 - 1 ∧ Nat.choose 126 63 < 2 ^ 128 - 1 := by
  have dice : (1 : Int) ≤ 4 ∧ (4 : Int) ≤ greatestInteger := by decide
  have sides : (1 : Int) ≤ 6 ∧ (6 : Int) ≤ greatestInteger := by decide
  have manyDice : (1 : Int) ≤ 63 ∧ (63 : Int) ≤ greatestInteger := by decide
  have manySides : (1 : Int) ≤ 64 ∧ (64 : Int) ≤ greatestInteger := by decide
  have turn : RollCountTurn 5 4 2 6 := .next .first (by decide) (by decide)
  have accepted : Limits.standard.checkKeptPool 4 6 = .ok () := by decide +kernel
  obtain ⟨counted, turns, number, limited⟩ :=
    sortedRollCount_exact dice.1 sides.1 dice.2 sides.2
  obtain ⟨saturated, -⟩ :=
    sortedRollCount_exact manyDice.1 manySides.1 manyDice.2 manySides.2
  have sizes : (min 63 (64 - 1) : Int).toNat = 63 ∧ (63 + 64 - 1 : Int).toNat = 126 ∧
      (63 : Int).toNat = 63 := by decide
  have rolls : Nat.choose 126 63 = 6034934435761406706427864636568328000 := by
    rw [Nat.choose_eq_descFactorial_div_factorial]
    norm_num [Nat.descFactorial, Nat.factorial]
  refine ⟨dice.1, sides.1, sides.2, manySides.2, ⟨counted.trans (by decide), number.trans (by decide),
    turn, ((turns 2 6 turn).2 (by decide)).2.2, accepted,
    limited .standard 250000 rfl (by decide) accepted⟩, saturated.trans (if_neg ?_), ?_⟩
  · rw [sizes.1, sizes.2.1, sizes.2.2, rolls]
    decide
  · rw [rolls]
    decide

end DiceOdds
