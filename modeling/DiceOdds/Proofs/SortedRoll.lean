import DiceOdds.Proofs.PoolShares
import DiceOdds.Proofs.RollCount

/-
This file enumerates what a keeping pool carries. After every die these are the sorted rolls of the dice
thrown so far, and the roll count of the pool bounds their number from the first die to the last one.
-/

namespace DiceOdds

open Finset

theorem Distribution.Ascending.values_nodup {A : Type} [Ord A] [Std.TransOrd A]
    {distribution : Distribution A} (ascending : distribution.Ascending) :
    distribution.values.Nodup := by
  refine List.pairwise_map.2 (ascending.imp fun {first second} less same => ?_)
  have equal : compare first.value second.value = .eq := by
    rw [same]
    exact Std.ReflCmp.compare_self
  rw [equal] at less
  cases less

/-- The faces of a roll can be ordered in as many ways as there are tuples that sort to them. -/
theorem card_orderings {dice : Nat} {sides : Int} {roll : List Int}
    (isRoll : IsSortedRoll dice sides roll) :
    #{faces : Fin dice → Fin sides.toNat |
        sortedFaces (List.ofFn fun die => (faces die : Int) + 1) = roll} =
      roll.permutations.toFinset.card := by
  refine card_bij (fun faces _ => List.ofFn fun die => (faces die : Int) + 1) ?_ ?_ ?_
  · intro faces member
    rw [List.mem_toFinset, List.mem_permutations, ← (mem_filter.1 member).2]
    exact (sortedFaces_perm _).symm
  · intro first _ second _ same
    funext die
    have equal := congrFun (List.ofFn_injective same) die
    exact Fin.ext (by simpa using equal)
  · intro listed member
    have perm : listed.Perm roll := List.mem_permutations.1 (List.mem_toFinset.1 member)
    obtain ⟨tuple, inside, same⟩ := exists_faceTuple (perm.length_eq.trans isRoll.length)
      fun face listed => isRoll.faces face (perm.mem_iff.1 listed)
    obtain ⟨faces, rfl⟩ := mem_faceTuples_iff_exists.1 inside
    refine ⟨faces, mem_filter.2 ⟨mem_univ faces, ?_⟩, same⟩
    rw [same]
    exact (eq_sortedFaces isRoll.sorted perm.symm).symm

/-- A distribution enumerates sorted rolls when it lists each of them once, with the share of the ways
to order its faces. -/
structure Enumerates (dice : Nat) (sides : Int) (rolls : Distribution (List Int)) : Prop where
  distinct : rolls.values.Nodup
  values : ∀ roll, roll ∈ rolls.values ↔ IsSortedRoll dice sides roll
  probability : ∀ event ∈ rolls.events,
    event.probability = (event.value.permutations.toFinset.card : Rat) / (sides : Rat) ^ dice

namespace Enumerates

variable {dice : Nat} {sides : Int} {rolls : Distribution (List Int)}

theorem size_eq (enumerates : Enumerates dice sides rolls) :
    rolls.size = (dice + sides.toNat - 1).choose dice := by
  have listed : (rolls.values.toFinset : Set (List Int)) = {roll | IsSortedRoll dice sides roll} := by
    ext roll
    simp [enumerates.values]
  rw [← ncard_sortedRolls, ← listed, Set.ncard_coe_finset,
    List.toFinset_card_of_nodup enumerates.distinct, Distribution.values, List.length_map,
    Distribution.size]

/-- The law of sorted faces enumerates the sorted rolls. -/
theorem of_law (sided : 0 ≤ sides)
    (law : IsLaw rolls fun faces : Fin dice → Fin sides.toNat =>
      sortedFaces (List.ofFn fun die => (faces die : Int) + 1)) : Enumerates dice sides rolls := by
  have values (roll : List Int) : roll ∈ rolls.values ↔ IsSortedRoll dice sides roll := by
    refine (law.describes.values roll).trans ⟨?_, fun isRoll => ?_⟩
    · rintro ⟨faces, rfl⟩
      have perm := sortedFaces_perm (List.ofFn fun die => (faces die : Int) + 1)
      refine ⟨by simp [perm.length_eq], sortedFaces_pairwise _, fun face member => ?_⟩
      obtain ⟨die, rfl⟩ := List.mem_ofFn.1 (perm.mem_iff.1 member)
      have below := (faces die).isLt
      omega
    · obtain ⟨tuple, inside, same⟩ := exists_faceTuple isRoll.length isRoll.faces
      obtain ⟨faces, rfl⟩ := mem_faceTuples_iff_exists.1 inside
      refine ⟨faces, ?_⟩
      rw [same]
      exact (eq_sortedFaces isRoll.sorted (List.Perm.refl roll)).symm
  refine ⟨law.ascending.values_nodup, values, fun event member => ?_⟩
  have isRoll := (values event.value).1 (List.mem_map_of_mem member)
  have cast : (sides.toNat : Rat) = (sides : Rat) := by
    rw [← Int.cast_natCast, Int.toNat_of_nonneg sided]
  rw [law.event_probability_eq member, ← card_orderings isRoll,
    Fintype.card_fun, Fintype.card_fin, Fintype.card_fin, Nat.cast_pow, cast]
  simp only [Std.LawfulEqOrd.compare_eq_iff_eq]

end Enumerates

namespace DicePool

/-- These are the rolls that a keeping pool carries when it has come to a number of its dice. -/
def carriedRolls (count : Nat) (die : Distribution Int) (dice : Nat) :
    Except Fault (Distribution (List Int)) :=
  Distribution.joinAll ((List.replicate count (die.map fun face => [face])).take dice) mergeRolls

theorem carriedRolls_eq {count dice : Nat} (few : dice ≤ count) (die : Distribution Int) :
    carriedRolls count die dice = sortedRolls dice die := by
  rw [carriedRolls, List.take_replicate, Nat.min_eq_left few, sortedRolls]

/-- The kept dice are added up after the last die. -/
theorem keptDistribution_eq {count sides number : Int} {die : Distribution Int}
    (accepted : checkRange count sides = .ok ()) (rolled : Distribution.die? sides = .ok die)
    (rollEnd : RollEnd) (kept : 1 ≤ number) (fewer : number < count) :
    keptDistribution count sides rollEnd number =
      (carriedRolls count.toNat die count.toNat).map fun rolls =>
        rolls.map fun roll => faceSum (rollEnd.keep number.toNat roll) := by
  have inside : ¬(number < 1 ∨ count ≤ number) := by omega
  rw [keptDistribution, accepted, rolled, carriedRolls_eq le_rfl]
  cases carried : sortedRolls count.toNat die <;>
    simp [bind, Except.bind, inside, carried, pure, Except.pure, Except.map]

/-- A keeping pool carries every sorted roll of the dice thrown so far once, with the share of the ways
to order its faces. The number of these rolls is a binomial coefficient. Unless it is the greatest
number, the roll count is never exceeded and is reached with the last die, and a limit below the
greatest number holds for the rolls that a pool carries when it holds for the pool. -/
theorem carriedRolls_enumerate {count sides : Int} (counted : 1 ≤ count) (sided : 1 ≤ sides)
    (accepted : checkRange count sides = .ok ()) :
    ∃ die, Distribution.die? sides = .ok die ∧
      (∀ dice : Nat, 1 ≤ dice → dice ≤ count.toNat → ∃ rolls,
        carriedRolls count.toNat die dice = .ok rolls ∧ Enumerates dice sides rolls ∧
          rolls.size = (dice + sides.toNat - 1).choose dice ∧
          (sortedRollCount count sides < 2 ^ 128 - 1 → rolls.size ≤ sortedRollCount count sides ∧
            (dice = count.toNat → rolls.size = sortedRollCount count sides)) ∧
          ∀ (limits : Limits) (bound : Nat), limits.rolls = some bound → bound < 2 ^ 128 - 1 →
            limits.checkKeptPool count sides = .ok () → rolls.size ≤ bound) ∧
      ∀ (rollEnd : RollEnd) (number : Int), 1 ≤ number → number < count →
        keptDistribution count sides rollEnd number =
          (carriedRolls count.toNat die count.toNat).map fun rolls =>
            rolls.map fun roll => faceSum (rollEnd.keep number.toNat roll) := by
  obtain ⟨die, rolled, law⟩ := Distribution.die?_law sided
  refine ⟨die, rolled, fun dice some few => ?_, fun rollEnd number kept fewer =>
    keptDistribution_eq accepted rolled rollEnd kept fewer⟩
  obtain ⟨rolls, carried, lawful⟩ := sortedRolls_law law some
  have enumerates : Enumerates dice sides rolls := .of_law (by omega) lawful
  have size := enumerates.size_eq
  -- There are more sorted rolls of more dice, so the last number bounds those before it.
  have grows : rolls.size ≤ (count + sides - 1).toNat.choose count.toNat := by
    rw [size, show dice + sides.toNat - 1 = dice + (sides - 1).toNat by omega,
      show (count + sides - 1).toNat = count.toNat + (sides - 1).toNat by omega,
      Nat.choose_symm_add, Nat.choose_symm_add]
    exact Nat.choose_mono _ (Nat.add_le_add_right few _)
  simp only [← greatestRollCount_eq]
  refine ⟨rolls, (carriedRolls_eq few die).trans carried, enumerates, size, fun below => ?_, ?_⟩
  · rw [sortedRollCount_of_lt counted sided below]
    refine ⟨grows, fun last => ?_⟩
    rw [size, last, show count.toNat + sides.toNat - 1 = (count + sides - 1).toNat by omega]
  · intro limits bound limited below accepted
    exact grows.trans (choose_le_of_accepted counted sided limited below accepted)

/-- Three coins have four sorted rolls, which the limit of four allows, and the roll with two ones stands
for three of their eight orderings. -/
theorem carriedRolls_enumerate_coins :
    (1 : Int) ≤ 3 ∧ (1 : Int) ≤ 2 ∧ checkRange 3 2 = .ok () ∧
      (⟨none, none, some 4⟩ : Limits).checkKeptPool 3 2 = .ok () ∧
      ∃ die rolls, Distribution.die? 2 = .ok die ∧ carriedRolls 3 die 3 = .ok rolls ∧
        rolls.size = sortedRollCount 3 2 ∧ rolls.size ≤ 4 ∧
        (∃ event ∈ rolls.events, event.value = [1, 1, 2] ∧ event.probability = 3 / 8) ∧
        keptDistribution 3 2 .highest 2 =
          .ok (rolls.map fun roll => faceSum (RollEnd.highest.keep 2 roll)) := by
  have counted : (1 : Int) ≤ 3 := by decide
  have sided : (1 : Int) ≤ 2 := by decide
  have accepted : checkRange 3 2 = .ok () := rfl
  have limited : (⟨none, none, some 4⟩ : Limits).checkKeptPool 3 2 = .ok () := rfl
  have orderings : [(1 : Int), 1, 2].permutations.toFinset.card = 3 := by
    rw [List.toFinset_eq_of_perm _ _ (List.permutations_perm_permutations' _)]
    decide
  have coins : IsSortedRoll 3 2 [1, 1, 2] := ⟨rfl, by decide, by decide⟩
  obtain ⟨die, rolled, enumerated, keeps⟩ := carriedRolls_enumerate counted sided accepted
  obtain ⟨rolls, carried, enumerates, -, counts, limits⟩ := enumerated 3 (by decide) (by decide)
  obtain ⟨event, member, listed⟩ := List.mem_map.1 ((enumerates.values _).2 coins)
  have share := enumerates.probability event member
  rw [listed, orderings] at share
  have kept := keeps .highest 2 (by decide) (by decide)
  exact ⟨counted, sided, accepted, limited, die, rolls, rolled, carried,
    (counts (by decide)).2 rfl, limits _ 4 rfl (by decide) limited,
    ⟨event, member, listed, by rw [share]; norm_num⟩, kept.trans (congrArg _ carried)⟩

end DicePool

end DiceOdds
