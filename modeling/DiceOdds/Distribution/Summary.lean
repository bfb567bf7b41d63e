import DiceOdds.Distribution
import DiceOdds.Double.Nearest

/-!
How probabilities are shown, and the mean of a distribution of integers.
-/

namespace DiceOdds

/-- A whole probability has no denominator. -/
def probabilityText (probability : Rat) : String :=
  if probability.den == 1 then toString probability.num
  else toString probability.num ++ "/" ++ toString probability.den

/-- The mean is added up in doubles, from the least outcome to the greatest. -/
def Distribution.mean (distribution : Distribution Int) : Float :=
  distribution.events.foldl
    (fun sum event =>
      sum + nearestDouble (event.value : Rat) * nearestDouble event.probability)
    (-0.0)

end DiceOdds
