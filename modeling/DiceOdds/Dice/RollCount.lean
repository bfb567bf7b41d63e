/-!
The number of distinct sorted rolls of a pool. It is a binomial coefficient that is built up one
factor at a time, and it stays at the greatest number of one hundred and twenty-eight bits as soon
as a product on the way exceeds that number.
-/

namespace DiceOdds

/-- This is the greatest number that a roll count shows. -/
def greatestRollCount : Nat := 340282366920938463463374607431768211455

/-- After each factor the count is the binomial coefficient of `larger + factor` over `factor`. -/
def extendRollCount (larger : Nat) : (remaining factor count : Nat) → Option Nat
  | 0, _, count => some count
  | remaining + 1, factor, count =>
      let product := count * (larger + factor)
      if product ≤ greatestRollCount then
        extendRollCount larger remaining (factor + 1) (product / factor)
      else none

/-- A pool without dice or without sides counts as one roll. -/
def sortedRollCount (count sides : Int) : Nat :=
  if count ≤ 0 || sides ≤ 0 then 1
  else
    let dice := count.toNat
    let steps := (sides - 1).toNat
    (extendRollCount (max dice steps) (min dice steps) 1 1).getD greatestRollCount

end DiceOdds
