import DiceOdds.Double.Nearest

/-!
Doubles with two decimal places. The exact value of the double is rounded once, and a half goes to
the even neighbour.
-/

namespace DiceOdds

namespace Double

/-- A finite double is a whole multiple of a power of two. -/
structure Parts where
  multiple : Nat
  exponent : Int

/-- The lowest exponent belongs to the doubles without a leading one. -/
def parts (bits : Nat) : Parts :=
  let exponent := (bits >>> 52) % 2048
  let fraction := bits % (1 <<< 52)
  if exponent == 0 then ⟨fraction, -1074⟩ else ⟨fraction + (1 <<< 52), (exponent : Int) - 1075⟩

/-- This is the value in hundredths. -/
def hundredths (value : Parts) : Nat :=
  if value.exponent < 0 then
    roundQuotient (value.multiple * 100) (1 <<< (-value.exponent).toNat)
  else (value.multiple * 100) <<< value.exponent.toNat

def hundredthsText (number : Nat) : String :=
  let places := number % 100
  toString (number / 100) ++ "." ++ toString (places / 10) ++ toString (places % 10)

end Double

/-- This is the text of a double that is not negative. -/
def twoPlaces (number : Float) : String :=
  if number.isNaN then "NaN"
  else if number.isInf then "inf"
  else Double.hundredthsText (Double.hundredths (Double.parts number.toBits.toNat))

end DiceOdds
