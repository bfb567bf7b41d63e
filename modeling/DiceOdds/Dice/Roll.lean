import DiceOdds.Dice.Pool
import DiceOdds.Distribution
import DiceOdds.Integer.Range

/-!
The distributions of dice pools. A plain pool adds up its dice one at a time; a keeping pool carries
every sorted roll until the last die is thrown and then adds up the kept end.
-/

namespace DiceOdds

/-- This is the sum of a list of faces. -/
def faceSum (faces : List Int) : Int :=
  faces.foldr (fun face sum => face + sum) 0

namespace RollEnd

/-- This function takes the kept dice of a sorted roll. -/
def keep (rollEnd : RollEnd) (number : Nat) (roll : List Int) : List Int :=
  match rollEnd with
  | .highest => roll.drop (roll.length - number)
  | .lowest => roll.take number

end RollEnd

namespace DicePool

/-- No partial sum exceeds the product of count and sides, so one check covers them all. -/
def checkRange (count sides : Int) : Except Fault Unit :=
  if count < 0 then .error (.outsideDomain .diceCount count)
  else if sides < 1 then .error (.outsideDomain .dieSides sides)
  else if Representable (count * sides) then .ok ()
  else .error (.overflow .multiply count sides)

/-- No dice at all sum to zero. -/
def sumDistribution (count sides : Int) : Except Fault (Distribution Int) := do
  checkRange count sides
  if count == 0 then return .certain 0
  let die ← Distribution.die? sides
  Distribution.joinAll (List.replicate count.toNat die) fun left right => left + right

/-- This function merges two sorted rolls. -/
def mergeRolls (first second : List Int) : List Int :=
  first.merge second fun left right => decide (left ≤ right)

/-- This is the distribution of the sorted rolls of a number of equal dice. -/
def sortedRolls (count : Nat) (die : Distribution Int) : Except Fault (Distribution (List Int)) :=
  Distribution.joinAll (List.replicate count (die.map fun face => [face])) mergeRolls

/-- At least one die is kept and at least one is left out. -/
def keptDistribution (count sides : Int) (rollEnd : RollEnd) (number : Int) :
    Except Fault (Distribution Int) := do
  checkRange count sides
  if number < 1 || count ≤ number then
    throw (.outsideDomain .keptDice number)
  let die ← Distribution.die? sides
  let rolls ← sortedRolls count.toNat die
  return rolls.map fun roll => faceSum (rollEnd.keep number.toNat roll)

def distribution (pool : DicePool) : Except Fault (Distribution Int) :=
  match pool.kept with
  | none => sumDistribution pool.count pool.sides
  | some (rollEnd, number) => keptDistribution pool.count pool.sides rollEnd number

end DicePool

end DiceOdds
