import DiceOdds.Integer.Numeral
import DiceOdds.Proofs.Agreement

/-
This file says which numerals are read and as which numbers. A numeral is accepted when it has at least
one digit behind its sign and its number is in range, and the text of a number is such a numeral.
-/

namespace DiceOdds

/-- A text splits at the first character outside of a class. -/
theorem takeWhile_split {class' : Char → Bool} {front back : List Char}
    (inside : ∀ character ∈ front, class' character = true)
    (outside : ∀ character ∈ back.head?, class' character = false) :
    (front ++ back).takeWhile class' = front ∧ (front ++ back).dropWhile class' = back := by
  rw [List.takeWhile_append_of_pos inside, List.dropWhile_append_of_pos inside]
  cases back with
  | nil => simp
  | cons first rest =>
      have ended : class' first = false := outside first rfl
      simp [ended]

/-- A numeral without a sign has at least one digit and nothing else. -/
structure IsNumeral (digits : List Char) : Prop where
  nonempty : digits ≠ []
  decimal : ∀ digit ∈ digits, digit.isDigit = true

/-- A numeral without a sign can write these numbers. -/
def Written (number : Int) : Prop :=
  0 ≤ number ∧ number ≤ greatestInteger

theorem Written.representable {number : Int} (written : Written number) : Representable number :=
  ⟨Int.le_trans (by decide) written.1, written.2⟩

namespace Numeral

namespace Sign

/-- This is the number with a sign and a magnitude. -/
def signed : Sign → Nat → Int
  | .positive, magnitude => magnitude
  | .negative, magnitude => -magnitude

theorem append_signed (sign : Sign) (value : Nat) (digit : Char) :
    sign.append (sign.signed value) (digitValue digit) =
      sign.signed (10 * value + (digit.toNat - '0'.toNat)) := by
  cases sign <;> simp only [append, signed, digitValue] <;> push_cast <;> ring

/-- Every magnitude below one in range is in range. -/
theorem representable_of_le {sign : Sign} {small large : Nat} (below : small ≤ large)
    (inRange : Representable (sign.signed large)) : Representable (sign.signed small) := by
  unfold Representable leastInteger greatestInteger at *
  cases sign <;> simp only [signed] at * <;> omega

end Sign

theorem le_ofDigitChars (digits : List Char) (value : Nat) :
    value ≤ Nat.ofDigitChars 10 digits value := by
  induction digits generalizing value with
  | nil => simp
  | cons digit digits known =>
      rw [Nat.ofDigitChars_cons]
      exact Nat.le_trans (by omega) (known _)

/-- Digits are read to the end exactly when the number of all of them is in range. -/
theorem continueDigits_eq_ok_iff (sign : Sign) (value : Nat) {digits : List Char} {number : Int}
    (inRange : Representable (sign.signed value)) :
    continueDigits sign (sign.signed value) digits = .ok number ↔
      (∀ digit ∈ digits, digit.isDigit = true) ∧
        number = sign.signed (Nat.ofDigitChars 10 digits value) ∧ Representable number := by
  induction digits generalizing value with
  | nil =>
      rw [continueDigits, Except.ok.injEq, eq_comm]
      simp only [List.not_mem_nil, false_implies, implies_true, true_and, Nat.ofDigitChars_nil]
      constructor
      · rintro rfl
        exact ⟨rfl, inRange⟩
      · exact And.left
  | cons digit digits known =>
      rw [continueDigits, List.forall_mem_cons, Nat.ofDigitChars_cons]
      dsimp only
      rw [Sign.append_signed]
      by_cases decimal : digit.isDigit = true
      · rw [if_pos decimal]
        split
        · next goesOn => rw [known _ goesOn, and_iff_right decimal]
        · next leaves =>
            have below := le_ofDigitChars digits (10 * value + (digit.toNat - '0'.toNat))
            simp only [reduceCtorEq, false_iff]
            rintro ⟨-, rfl, fits⟩
            exact leaves (Sign.representable_of_le below fits)
      · simp [decimal]

/-- This is the number that digits have without a sign. -/
def magnitude (digits : List Char) : Nat :=
  Nat.ofDigitChars 10 digits 0

theorem continueDigits_zero (sign : Sign) {digits : List Char} {number : Int} :
    continueDigits sign 0 digits = .ok number ↔ (∀ digit ∈ digits, digit.isDigit = true) ∧
      number = sign.signed (magnitude digits) ∧ Representable number := by
  have nothing : sign.signed 0 = 0 := by cases sign <;> rfl
  have small : Representable (sign.signed 0) := by
    rw [nothing]
    decide
  rw [← nothing, continueDigits_eq_ok_iff sign 0 small]
  rfl

/-- A numeral denotes a number by its digits and by the sign in front of them, if there is one. -/
inductive Denotes : List Char → Int → Prop where
  | plain {digits : List Char} (numeral : IsNumeral digits) : Denotes digits (magnitude digits)
  | plus {digits : List Char} (numeral : IsNumeral digits) :
      Denotes ('+' :: digits) (magnitude digits)
  | minus {digits : List Char} (numeral : IsNumeral digits) :
      Denotes ('-' :: digits) (-magnitude digits)

theorem Denotes.ne_nil {text : List Char} {number : Int} (denotes : Denotes text number) :
    text ≠ [] := by
  cases denotes with
  | plain numeral => exact numeral.nonempty
  | plus numeral => exact List.cons_ne_nil _ _
  | minus numeral => exact List.cons_ne_nil _ _

/-- A numeral is accepted as the number that it denotes, unless this number is out of range. -/
def Accepts (text : List Char) (number : Int) : Prop :=
  Denotes text number ∧ Representable number

/-- A sign is no digit. -/
theorem denotes_plus_iff {digits : List Char} {number : Int} :
    Denotes ('+' :: digits) number ↔ IsNumeral digits ∧ number = magnitude digits := by
  constructor
  · rintro (⟨⟨-, decimal⟩⟩ | numeral | -)
    · cases decimal '+' List.mem_cons_self
    · exact ⟨numeral, rfl⟩
  · rintro ⟨numeral, rfl⟩
    exact .plus numeral

theorem denotes_minus_iff {digits : List Char} {number : Int} :
    Denotes ('-' :: digits) number ↔ IsNumeral digits ∧ number = -magnitude digits := by
  constructor
  · rintro (⟨⟨-, decimal⟩⟩ | - | numeral)
    · cases decimal '-' List.mem_cons_self
    · exact ⟨numeral, rfl⟩
  · rintro ⟨numeral, rfl⟩
    exact .minus numeral

theorem denotes_unsigned_iff {text : List Char} {number : Int}
    (notPlus : ∀ digits, text ≠ '+' :: digits) (notMinus : ∀ digits, text ≠ '-' :: digits) :
    Denotes text number ↔ IsNumeral text ∧ number = magnitude text := by
  constructor
  · rintro (numeral | numeral | numeral)
    · exact ⟨numeral, rfl⟩
    · exact absurd rfl (notPlus _)
    · exact absurd rfl (notMinus _)
  · rintro ⟨numeral, rfl⟩
    exact .plain numeral

/-- Reading a text gives the number that it is accepted as. -/
theorem read_eq_ok_iff {text : List Char} {number : Int} :
    read text = .ok number ↔ Accepts text number := by
  have empty : ¬IsNumeral [] := fun numeral => numeral.nonempty rfl
  rw [Accepts]
  unfold read
  split
  · rw [denotes_unsigned_iff (by simp) (by simp)]
    simp [empty]
  · rw [denotes_plus_iff]
    simp [empty]
  · rw [denotes_minus_iff]
    simp [empty]
  · next digits some =>
      rw [denotes_plus_iff, continueDigits_zero, ← and_assoc]
      have nonempty : digits ≠ [] := by rintro rfl; exact some rfl
      exact and_congr_left fun _ => and_congr_left fun _ => ⟨.mk nonempty, IsNumeral.decimal⟩
  · next digits some =>
      rw [denotes_minus_iff, continueDigits_zero, ← and_assoc]
      have nonempty : digits ≠ [] := by rintro rfl; exact some rfl
      exact and_congr_left fun _ => and_congr_left fun _ => ⟨.mk nonempty, IsNumeral.decimal⟩
  · next some _ _ notPlus notMinus =>
      rw [denotes_unsigned_iff notPlus notMinus, continueDigits_zero, ← and_assoc]
      exact and_congr_left fun _ => and_congr_left fun _ => ⟨.mk some, IsNumeral.decimal⟩

/-- A text that is accepted as no number is refused. -/
theorem exists_read_eq_error_iff {text : List Char} :
    (∃ fault, read text = .error fault) ↔ ¬∃ number, Accepts text number := by
  simp only [← read_eq_ok_iff]
  cases read text <;> simp

/-- A numeral without a sign denotes a number that is not negative. -/
theorem denotes_iff_of_isNumeral {digits : List Char} {number : Int} (numeral : IsNumeral digits) :
    Denotes digits number ↔ number = magnitude digits := by
  rw [denotes_unsigned_iff, and_iff_right numeral]
  · rintro rest rfl
    cases numeral.decimal '+' List.mem_cons_self
  · rintro rest rfl
    cases numeral.decimal '-' List.mem_cons_self

/-- A numeral without a sign is refused when its number is too large. -/
theorem exists_read_eq_error_iff_of_isNumeral {digits : List Char} (numeral : IsNumeral digits) :
    (∃ fault, read digits = .error fault) ↔ greatestInteger < magnitude digits := by
  simp only [exists_read_eq_error_iff, Accepts, denotes_iff_of_isNumeral numeral, exists_eq_left]
  unfold Representable leastInteger
  omega

theorem read_written {digits : List Char} {number : Int} (numeral : IsNumeral digits)
    (ran : read digits = .ok number) : Written number := by
  obtain ⟨denotes, inRange⟩ := read_eq_ok_iff.1 ran
  obtain rfl := (denotes_iff_of_isNumeral numeral).1 denotes
  exact ⟨Int.natCast_nonneg _, inRange.2⟩

/-- The text of a number that is not negative consists of digits. -/
theorem toList_toString {number : Int} (natural : 0 ≤ number) :
    (toString number).toList = Nat.toDigits 10 number.toNat := by
  obtain ⟨count, rfl⟩ := Int.eq_ofNat_of_zero_le natural
  rw [Int.toString_eq_repr, Int.toNat_natCast]
  exact Nat.toList_repr

theorem isNumeral_toDigits (count : Nat) : IsNumeral (Nat.toDigits 10 count) :=
  ⟨Nat.toDigits_ne_nil, fun _ member =>
    Nat.isDigit_of_mem_toDigits (by decide) (by decide) member⟩

theorem isNumeral_toString {number : Int} (natural : 0 ≤ number) :
    IsNumeral (toString number).toList := by
  rw [toList_toString natural]
  exact isNumeral_toDigits _

/-- The text of a number denotes this number. -/
theorem denotes_toString (number : Int) : Denotes (toString number).toList number := by
  rcases number with count | count
  · have denotes := Denotes.plain (isNumeral_toDigits count)
    rw [magnitude, Nat.ofDigitChars_ten_toDigits] at denotes
    have natural : 0 ≤ Int.ofNat count := Int.natCast_nonneg count
    rwa [toList_toString natural]
  · have denotes := Denotes.minus (isNumeral_toDigits (count + 1))
    rw [magnitude, Nat.ofDigitChars_ten_toDigits] at denotes
    have shown : (toString (Int.negSucc count)).toList = '-' :: Nat.toDigits 10 (count + 1) := by
      rw [Int.toString_eq_repr]
      change ("-" ++ Nat.repr (count + 1)).toList = _
      rw [String.toList_append, Nat.toList_repr]
      rfl
    rw [shown]
    exact denotes

/-- Reading the text of a number gives the number back. -/
theorem read_toString {number : Int} (inRange : Representable number) :
    read (toString number).toList = .ok number :=
  read_eq_ok_iff.2 ⟨denotes_toString number, inRange⟩

end Numeral

end DiceOdds
