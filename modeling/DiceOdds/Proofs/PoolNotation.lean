import DiceOdds.Proofs.Lexing

/-
This file says which texts are dice pools and which fault every other text has.
-/

namespace DiceOdds

namespace DicePool

/-- The text of every pool reads as this pool, and a text reads as a pool when it has a delimiter
between numerals that are in range, where the count may be missing and kept dice may follow. A text
without a delimiter has its own fault; in every other text the first bad numeral decides, the count
before the kept dice and these before the sides. What the rule for dice matches is refused for its size
only. -/
theorem read_notation :
    (∀ pool : DicePool, pool.InRange → DicePool.read pool.text.toList = .ok pool) ∧
    (∀ text pool, DicePool.read text = .ok pool ↔
      ∃ parts : PoolParts, parts.Denotes pool ∧ parts.text = text) ∧
    (∀ text, DicePool.read text = .error .noDelimiter ↔ 'd' ∉ text) ∧
    (∀ text, 'd' ∈ text → ∃ parts : PoolParts, parts.Cut ∧ parts.text = text) ∧
    (∀ parts : PoolParts, parts.Cut → ∀ fault,
      DicePool.read parts.text = .error fault ↔ IsFirst PoolParts.Refuses parts.numerals fault) ∧
    (∀ text, (∃ fault, Numeral.read text = .error fault) ↔ ¬∃ number, Numeral.Accepts text number) ∧
    (∀ text matched, TokenRule.dice.longest? text = some matched →
      ∃ parts : PoolParts, parts.Plain ∧ parts.text = matched) ∧
    ∀ parts : PoolParts, parts.Plain → ((∃ fault, DicePool.read parts.text = .error fault) ↔
      ∃ numeral ∈ parts.numerals, greatestInteger < Numeral.magnitude numeral.2) := by
  refine ⟨fun pool inRange => read_text inRange, fun text pool => read_eq_ok_iff,
    fun text => read_eq_noDelimiter_iff, fun text delimited => exists_cut delimited,
    fun parts cut fault => read_parts_eq_error_iff cut, fun text => Numeral.exists_read_eq_error_iff,
    fun text matched found => ?_, fun parts plain => exists_read_eq_error_iff_of_plain plain⟩
  exact (TokenRule.dice?_isPool found).exists_parts

/-- Signs are read back, a sign alone is a bad count in front of bad sides, and a count beyond the
greatest integer is matched but refused. -/
theorem read_notation_signs :
    let signed : DicePool := ⟨-3, 6, some (.highest, leastInteger)⟩
    let signAlone : PoolParts := ⟨['+'], ['x'], none⟩
    let large : PoolParts := ⟨"9223372036854775808".toList, ['6'], none⟩
    (signed.InRange ∧ DicePool.read signed.text.toList = .ok signed) ∧
      (signAlone.Cut ∧ DicePool.read signAlone.text = .error (.count .invalidDigit)) ∧
      TokenRule.dice.longest? large.text = some large.text ∧ large.Plain ∧
        ∃ fault, DicePool.read large.text = .error fault := by
  intro signed signAlone large
  obtain ⟨shown, -, -, -, refused, -, -, sized⟩ := read_notation
  have inRange : signed.InRange := ⟨by decide, by decide, by rintro _ _ ⟨⟩; decide⟩
  have cut : signAlone.Cut := ⟨by simp [signAlone], by simp [signAlone, RollEnd.ofLetter?]⟩
  have plain : large.Plain :=
    ⟨by simp [large, Char.isDigit], ⟨by simp [large], by simp [large, Char.isDigit]⟩, by simp [large]⟩
  refine ⟨⟨inRange, shown signed inRange⟩, ⟨cut, ?_⟩, ?_, plain, ?_⟩
  · rw [refused signAlone cut]
    exact ⟨[], _, _, rfl, by simp, .invalidDigit, rfl, rfl⟩
  · decide
  · exact (sized large plain).2 ⟨(.count, large.count), by simp [PoolParts.numerals, large], by decide⟩

end DicePool

end DiceOdds
