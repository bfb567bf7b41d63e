import DiceOdds.Dice.Pool
import DiceOdds.Dice.RollCount

/-!
Limits on the size of a dice pool. They are checked when an expression is written, before any roll
is enumerated; numbers outside their domain are left to the calculation.
-/

namespace DiceOdds

/-- These are the sizes that have a limit. -/
inductive PoolSize where
  | diceCount
  | dieSides
  | sortedRolls
  deriving DecidableEq

def PoolSize.text : PoolSize → String
  | .diceCount => "dice count"
  | .dieSides => "die sides"
  | .sortedRolls => "sorted rolls"

/-- An excess names the size, its value and the limit below it. -/
structure Excess where
  size : PoolSize
  found : Nat
  limit : Nat
  deriving DecidableEq

def Excess.message (excess : Excess) : String :=
  excess.size.text ++ " of " ++ toString excess.found ++ " exceeds the limit of " ++
    toString excess.limit

/-- A size without a limit is never in excess. -/
structure Limits where
  dice : Option Nat
  faces : Option Nat
  rolls : Option Nat

namespace Limits

/-- These limits hold where no others are given. -/
def standard : Limits :=
  ⟨some 40, some 120, some 250000⟩

def check (size : PoolSize) (found : Nat) (limit : Option Nat) : Except Excess Unit :=
  match limit with
  | none => .ok ()
  | some bound => if bound < found then .error ⟨size, found, bound⟩ else .ok ()

/-- Every pool is limited in its dice and in their faces. -/
def checkPool (limits : Limits) (count sides : Int) : Except Excess Unit := do
  check .diceCount count.toNat limits.dice
  check .dieSides sides.toNat limits.faces

/-- A keeping pool is limited in its sorted rolls as well. -/
def checkKeptPool (limits : Limits) (count sides : Int) : Except Excess Unit := do
  limits.checkPool count sides
  check .sortedRolls (sortedRollCount count sides) limits.rolls

end Limits

end DiceOdds
