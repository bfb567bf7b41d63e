/-!
The integers of the language. They are signed and occupy sixty-four bits; results outside this range
are refused, never wrapped.
-/

namespace DiceOdds

/-- This is the least integer of the language. -/
def leastInteger : Int := -9223372036854775808

/-- This is the greatest integer of the language. -/
def greatestInteger : Int := 9223372036854775807

/-- A number is representable when it lies between the least and the greatest integer. -/
def Representable (number : Int) : Prop :=
  leastInteger ≤ number ∧ number ≤ greatestInteger

instance (number : Int) : Decidable (Representable number) :=
  inferInstanceAs (Decidable (_ ∧ _))

/-- This function keeps representable numbers only. -/
def representable? (number : Int) : Option Int :=
  if Representable number then some number else none

theorem representable?_eq_some_iff {number result : Int} :
    representable? number = some result ↔ Representable number ∧ result = number := by
  unfold representable?
  split <;> simp_all [eq_comm]

end DiceOdds
