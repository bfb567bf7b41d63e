import DiceOdds.Proofs.NormalForm
import DiceOdds.Proofs.PoolShares

/-
This file turns every die of a roll upside down. A pool that keeps its lowest dice becomes one that
keeps its highest dice, and the kept dice and all others together have the mean of the whole pool.
-/

namespace DiceOdds

open Finset

namespace RollEnd

/-- Subtracting every face from a number subtracts their sum from its multiple. -/
theorem sum_map_sub (number : Int) (faces : List Int) :
    (faces.map fun face => number - face).sum = faces.length * number - faces.sum := by
  induction faces with
  | nil => simp
  | cons face rest known =>
      rw [List.map_cons, List.sum_cons, List.sum_cons, known, List.length_cons]
      push_cast
      ring

/-- The highest of the faces upside down are the lowest faces upside down. -/
theorem keptSum_upsideDown {number : Nat} {faces : List Int} (few : number ≤ faces.length)
    (bound : Int) :
    highest.keptSum number (faces.map fun face => bound - face) =
      number * bound - lowest.keptSum number faces := by
  have sorted : (faces.map fun face => bound - face).insertionSort highest.Nearer =
      (faces.insertionSort lowest.Nearer).map fun face => bound - face := by
    refine (List.map_insertionSort _ _ _ _ fun one _ other _ => ?_).symm
    simp only [Nearer]
    omega
  have length : ((faces.insertionSort lowest.Nearer).take number).length = number := by simp [few]
  rw [keptSum, sorted, ← List.map_take, sum_map_sub, length, keptSum]

/-- The highest dice and the lowest of all others are all dice. -/
theorem keptSum_add_keptSum (number : Nat) (faces : List Int) :
    highest.keptSum number faces + lowest.keptSum (faces.length - number) faces = faces.sum := by
  have perm := sortedFaces_perm faces
  rw [← faceSum_keep_eq, ← faceSum_keep_eq]
  change ((sortedFaces faces).drop ((sortedFaces faces).length - number)).sum +
    ((sortedFaces faces).take (faces.length - number)).sum = faces.sum
  rw [perm.length_eq, add_comm, List.sum_take_add_sum_drop, perm.sum_eq]

end RollEnd

/-- This is the mean of the outcomes with their exact probabilities. -/
def Distribution.exactMean (distribution : Distribution Int) : Rat :=
  (distribution.events.map fun event => event.probability * (event.value : Rat)).sum

namespace IsLaw

variable {Roll : Type} [Fintype Roll] {first second : Distribution Int} {one other total : Roll → Int}

/-- The mean of a law is the mean of its quantity over all rolls. -/
theorem exactMean_eq (law : IsLaw first one) :
    first.exactMean = (∑ roll, (one roll : Rat)) / Fintype.card Roll :=
  law.describes.expectation fun value => (value : Rat)

/-- Two quantities of the same rolls have the mean of their sum. -/
theorem exactMean_add (ofFirst : IsLaw first one) (ofSecond : IsLaw second other)
    (same : ∀ roll, one roll + other roll = total roll) :
    first.exactMean + second.exactMean = (∑ roll, (total roll : Rat)) / Fintype.card Roll := by
  rw [ofFirst.exactMean_eq, ofSecond.exactMean_eq, ← add_div, ← Finset.sum_add_distrib]
  simp only [← same, Int.cast_add]

end IsLaw

section UpsideDown

variable {count : Nat} {sides : Int}

/-- Every die of a roll is turned upside down. -/
def upsideDown (count sides : Nat) : (Fin count → Fin sides) ≃ (Fin count → Fin sides) :=
  Equiv.piCongrRight fun _ => Fin.revPerm

/-- A face and the one below it add up to one more than the number of sides. -/
theorem faces_upsideDown (roll : Fin count → Fin sides.toNat) :
    (List.ofFn fun die => (upsideDown count sides.toNat roll die : Int) + 1) =
      (List.ofFn fun die => (roll die : Int) + 1).map fun face => sides + 1 - face := by
  rw [List.map_ofFn]
  congr 1
  funext die
  have below := (roll die).isLt
  simp only [upsideDown, Equiv.piCongrRight_apply, Pi.map_apply, Fin.revPerm_apply, Fin.val_rev,
    Function.comp_apply]
  omega

end UpsideDown

namespace DicePool

section Pools

variable {count sides number : Int} (sided : 1 ≤ sides) (inRange : count * sides ≤ greatestInteger)
include sided inRange

/-- The mean of a whole pool lies in the middle between its least and its greatest sum. -/
theorem sumDistribution_exactMean (counted : 0 ≤ count) {sums : Distribution Int}
    (made : sumDistribution count sides = .ok sums) :
    sums.exactMean = count * (sides + 1) / 2 := by
  obtain ⟨found, rolled, law⟩ := sumDistribution_law counted sided inRange
  obtain rfl := Except.ok.inj (made.symm.trans rolled)
  -- Every roll and the same roll upside down have one total, so the pool added to itself is constant.
  have turned := law.equiv (upsideDown count.toNat sides.toNat)
  have constant (roll : Fin count.toNat → Fin sides.toNat) :
      (List.ofFn fun die => (roll die : Int) + 1).sum +
        (List.ofFn fun die => (upsideDown count.toNat sides.toNat roll die : Int) + 1).sum =
      count * (sides + 1) := by
    rw [faces_upsideDown, RollEnd.sum_map_sub, List.length_ofFn, Int.toNat_of_nonneg counted]
    ring
  have inhabited : (Fintype.card (Fin count.toNat → Fin sides.toNat) : Rat) ≠ 0 := by
    rw [Fintype.card_fun, Fintype.card_fin, Fintype.card_fin]
    exact_mod_cast pow_ne_zero _ (show sides.toNat ≠ 0 by omega)
  have twice : sums.exactMean + sums.exactMean = count * (sides + 1) := by
    rw [law.exactMean_add turned constant, Finset.sum_const, Finset.card_univ, nsmul_eq_mul,
      mul_div_cancel_left₀ _ inhabited]
    push_cast
    rfl
  linarith

/-- The highest dice of a pool are its lowest dice upside down. Together with the lowest of all others
they have the mean of the whole pool, which lies in the middle of its range. -/
theorem keptDistribution_mirrored (kept : 1 ≤ number) (fewer : number < count) :
    ∃ highest lowest others sums, keptDistribution count sides .highest number = .ok highest ∧
      keptDistribution count sides .lowest number = .ok lowest ∧
      keptDistribution count sides .lowest (count - number) = .ok others ∧
      sumDistribution count sides = .ok sums ∧
      lowest.map (fun value => number * (sides + 1) - value) = highest ∧
      highest.exactMean + others.exactMean = sums.exactMean ∧
      sums.exactMean = count * (sides + 1) / 2 := by
  obtain ⟨highest, madeHighest, ofHighest⟩ :=
    keptDistribution_law sided inRange .highest kept fewer
  obtain ⟨lowest, madeLowest, ofLowest⟩ := keptDistribution_law sided inRange .lowest kept fewer
  obtain ⟨others, madeOthers, ofOthers⟩ := keptDistribution_law sided inRange .lowest
    (show 1 ≤ count - number by omega) (show count - number < count by omega)
  have counted : 0 ≤ count := by omega
  obtain ⟨sums, madeSums, ofSums⟩ := sumDistribution_law counted sided inRange
  simp only [RollEnd.faceSum_keep_eq] at ofHighest ofLowest ofOthers
  refine ⟨highest, lowest, others, sums, madeHighest, madeLowest, madeOthers, madeSums, ?_, ?_,
    sumDistribution_exactMean sided inRange counted madeSums⟩
  · have turned := ofHighest.equiv (upsideDown count.toNat sides.toNat)
    refine ((ofLowest.map_exact _).matches_of_equal turned fun roll => ?_).eq
    have few : number.toNat ≤ (List.ofFn fun die => (roll die : Int) + 1).length := by
      rw [List.length_ofFn]
      omega
    rw [Std.LawfulEqOrd.compare_eq_iff_eq, faces_upsideDown, RollEnd.keptSum_upsideDown few,
      Int.toNat_of_nonneg (show 0 ≤ number by omega)]
  · rw [ofSums.exactMean_eq]
    refine ofHighest.exactMean_add ofOthers fun roll => ?_
    have all := RollEnd.keptSum_add_keptSum number.toNat (List.ofFn fun die => (roll die : Int) + 1)
    rw [List.length_ofFn, show count.toNat - number.toNat = (count - number).toNat by omega] at all
    exact all

end Pools

/-- The two highest of three coins are the two lowest upside down, and with the lowest coin they have
the mean of three coins. -/
theorem keptDistribution_mirrored_coins :
    (1 : Int) ≤ 2 ∧ (3 * 2 : Int) ≤ greatestInteger ∧ (2 : Int) < 3 ∧
      ∃ highest lowest other, keptDistribution 3 2 .highest 2 = .ok highest ∧
        keptDistribution 3 2 .lowest 2 = .ok lowest ∧ keptDistribution 3 2 .lowest 1 = .ok other ∧
        lowest.map (fun value => 6 - value) = highest ∧
        highest.exactMean + other.exactMean = 9 / 2 := by
  have sided : (1 : Int) ≤ 2 := by decide
  have inRange : (3 * 2 : Int) ≤ greatestInteger := by decide
  have fewer : (2 : Int) < 3 := by decide
  obtain ⟨highest, lowest, other, sums, madeHighest, madeLowest, madeOther, -, turned, split, mean⟩ :=
    keptDistribution_mirrored sided inRange sided fewer
  refine ⟨sided, inRange, fewer, highest, lowest, other, madeHighest, madeLowest, madeOther, turned, ?_⟩
  rw [split, mean]
  norm_num

end DicePool

end DiceOdds
