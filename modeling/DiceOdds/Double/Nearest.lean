/-!
The double that is nearest to a fraction. Of two doubles at the same distance the even one counts,
and fractions beyond the greatest double become infinite.
-/

namespace DiceOdds

/-- This function rounds a quotient to a whole number; a half goes to the even neighbour. -/
def roundQuotient (dividend divisor : Nat) : Nat :=
  let quotient := dividend / divisor
  let rest := dividend % divisor
  if 2 * rest < divisor then quotient
  else if divisor < 2 * rest then quotient + 1
  else quotient + quotient % 2

namespace Double

/-- This is the exponent of the greatest power of two that does not exceed a fraction. -/
def binaryExponent (numerator denominator : Nat) : Int :=
  let guess := (numerator.log2 : Int) - (denominator.log2 : Int)
  let reached :=
    if guess < 0 then decide (denominator ≤ numerator <<< (-guess).toNat)
    else decide (denominator <<< guess.toNat ≤ numerator)
  if reached then guess else guess - 1

/-- These are the bits of infinity without a sign. -/
def infiniteBits : Nat :=
  2047 <<< 52

/-- These are the bits of the double nearest to a positive fraction. -/
def nearestBits (numerator denominator : Nat) : Nat :=
  let unit := max (binaryExponent numerator denominator - 52) (-1074)
  let multiple :=
    if unit < 0 then roundQuotient (numerator <<< (-unit).toNat) denominator
    else roundQuotient numerator (denominator <<< unit.toNat)
  min (((unit + 1074).toNat <<< 52) + multiple) infiniteBits

/-- The sign bit stands in front of the others. -/
def signedBits (negative : Bool) (bits : Nat) : Nat :=
  if negative then (1 <<< 63) + bits else bits

end Double

def nearestDouble (number : Rat) : Float :=
  if number.num == 0 then Float.ofBits 0
  else
    Float.ofBits (Double.signedBits (decide (number.num < 0))
      (Double.nearestBits number.num.natAbs number.den)).toUInt64

end DiceOdds
