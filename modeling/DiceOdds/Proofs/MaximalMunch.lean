import DiceOdds.Proofs.RuleLanguage
import Mathlib

/-
This file shows that a text is read by maximal munch. The longest word of a rule makes each token, gaps
of blanks and comments stand between the tokens, and nothing of the text is lost.
-/

namespace DiceOdds

/-- An oversized literal is an integer or a pool with a number above the greatest integer. -/
def Oversized (word : List Char) : Prop :=
  IsNumeral word ∧ greatestInteger < Numeral.magnitude word ∨
    ∃ parts : PoolParts, parts.Plain ∧ parts.text = word ∧
      ∃ numeral ∈ parts.numerals, greatestInteger < Numeral.magnitude numeral.2

namespace TokenRule

/-- A rule makes a token from what its word denotes, or an invalid token from an oversized literal. -/
inductive Makes : TokenRule → List Char → Token → Prop where
  | integer {digits : List Char} {number : Int} (accepts : Numeral.Accepts digits number) :
      Makes .integer digits (.integer number)
  | dice {parts : PoolParts} {pool : DicePool} (denotes : parts.Denotes pool) :
      Makes .dice parts.text (.dice pool)
  | symbol (mark : Mark) (name : String) :
      Makes (.symbol mark) (markCharacter mark :: name.toList) (.symbol ⟨name, mark⟩)
  | name (name : String) : Makes .name ('$' :: name.toList) (.name name)
  | fixed (word : List Char) (token : Token) : Makes (.fixed word token) word token
  | oversized {rule : TokenRule} {word : List Char} (oversized : Oversized word) :
      Makes rule word .invalid

variable {rule : TokenRule} {word : List Char}

/-- The rules for literals describe the oversized ones. -/
theorem token_of_oversized (oversized : Oversized word) (member : rule ∈ all)
    (describes : rule.Describes word) : rule.token word = .invalid := by
  rcases oversized with ⟨numeral, large⟩ | ⟨parts, plain, rfl, large⟩
  · obtain rfl : rule = .integer :=
      describes_unique member (by simp [all]) describes numeral
    obtain ⟨fault, refused⟩ := (Numeral.exists_read_eq_error_iff_of_isNumeral numeral).2 large
    rw [token, refused]
  · obtain rfl : rule = .dice :=
      describes_unique member (by simp [all]) describes ⟨parts, plain, rfl⟩
    obtain ⟨fault, refused⟩ := (DicePool.exists_read_eq_error_iff_of_plain plain).2 large
    rw [token, refused]

theorem fixed_ne_invalid {token : Token} (member : .fixed word token ∈ all) : token ≠ .invalid := by
  have valid : ∀ rule ∈ all, ∀ (own : List Char) (made : Token), rule = .fixed own made →
      made ≠ .invalid := by
    simp [all, fixedRules]
  exact valid _ member word token rfl

/-- A word that makes an invalid token is an oversized literal. -/
theorem oversized_of_invalid (member : rule ∈ all) (describes : rule.Describes word)
    (invalid : rule.token word = .invalid) : Oversized word := by
  cases rule with
  | integer =>
      rw [token] at invalid
      split at invalid
      · cases invalid
      · next fault refused =>
          exact .inl ⟨describes,
            (Numeral.exists_read_eq_error_iff_of_isNumeral describes).1 ⟨fault, refused⟩⟩
  | dice =>
      obtain ⟨parts, plain, rfl⟩ := describes
      rw [token] at invalid
      split at invalid
      · cases invalid
      · next fault refused =>
          exact .inr ⟨parts, plain, rfl,
            (DicePool.exists_read_eq_error_iff_of_plain plain).1 ⟨fault, refused⟩⟩
  | symbol mark => cases invalid
  | name => cases invalid
  | fixed own made => exact absurd invalid (fixed_ne_invalid member)

/-- A word makes the token that its rule gives to it. -/
theorem makes_iff (member : rule ∈ all) (describes : rule.Describes word) {token : Token} :
    rule.Makes word token ↔ rule.token word = token := by
  constructor
  · intro makes
    cases makes with
    | integer accepts => rw [TokenRule.token, Numeral.read_eq_ok_iff.2 accepts]
    | dice denotes =>
        rw [TokenRule.token, (DicePool.read_parts_eq_ok_iff denotes.cut).2 denotes]
    | symbol mark name => simp [TokenRule.token]
    | name name => simp [TokenRule.token]
    | fixed => rfl
    | oversized oversized => exact token_of_oversized oversized member describes
  · rintro rfl
    by_cases invalid : rule.token word = .invalid
    · rw [invalid]
      exact .oversized (oversized_of_invalid member describes invalid)
    · cases rule with
      | integer =>
          rw [TokenRule.token] at invalid ⊢
          split
          · next number read => exact .integer (Numeral.read_eq_ok_iff.1 read)
          · next fault refused => simp [refused] at invalid
      | dice =>
          obtain ⟨parts, plain, rfl⟩ := describes
          rw [TokenRule.token] at invalid ⊢
          split
          · next pool read =>
              exact .dice ((DicePool.read_parts_eq_ok_iff (DicePool.cut_of_plain plain)).1 read)
          · next fault refused => simp [refused] at invalid
      | symbol mark =>
          obtain ⟨name, -, rfl⟩ := describes
          simpa [TokenRule.token] using Makes.symbol mark name
      | name =>
          obtain ⟨name, -, rfl⟩ := describes
          simpa [TokenRule.token] using Makes.name name
      | fixed own made =>
          obtain rfl : own = word := describes
          exact .fixed own made

end TokenRule

/-- The rest of a line is empty when the text ends or breaks here. -/
def EndsLine (text : List Char) : Prop :=
  ∀ character ∈ text.head?, character = '\n'

/-- A gap in front of a text has blanks, and comments up to the ends of their lines. -/
inductive Gap : List Char → List Char → Prop where
  | nil {back : List Char} : Gap [] back
  | blank {character : Char} {gap back : List Char} (blank : isBlank character = true)
      (rest : Gap gap back) : Gap (character :: gap) back
  | comment {body gap back : List Char} (inLine : '\n' ∉ body) (ended : EndsLine (gap ++ back))
      (rest : Gap gap back) : Gap ('#' :: (body ++ gap)) back

/-- A text starts with the longest word of a rule, or with a visible character that no rule matches. -/
inductive Takes : List Char → List Char → Token → Prop where
  | word {rule : TokenRule} {word text : List Char} {token : Token}
      (longest : rule.IsLongest word text) (makes : rule.Makes word token) : Takes text word token
  | stray {character : Char} {rest : List Char} (visible : IsVisible character)
      (unmatched : TokenRule.Unmatched (character :: rest)) :
      Takes (character :: rest) [character] .invalid

/-- A text is tokenized by taking words from it, with gaps around them. -/
inductive Tokenized : Nat → List Char → List Lexeme → Prop where
  | done {start : Nat} {gap : List Char} (skipped : Gap gap []) : Tokenized start gap []
  | next {start : Nat} {gap word rest : List Char} {token : Token} {found : List Lexeme}
      (skipped : Gap gap (word ++ rest)) (takes : Takes (word ++ rest) word token)
      (later : Tokenized (start + byteCount gap + byteCount word) rest found) :
      Tokenized start (gap ++ (word ++ rest)) (⟨token, start + byteCount gap, word⟩ :: found)

namespace Takes

variable {text word rest : List Char} {token : Token}

theorem visible (takes : Takes text word token) :
    word ≠ [] ∧ ∀ character ∈ word, IsVisible character := by
  cases takes with
  | word longest makes => exact longest.describes.visible longest.member
  | stray visible unmatched => exact ⟨by simp, by simpa using visible⟩

/-- The word that a text starts with makes its first lexeme. -/
theorem first_eq {character : Char} (takes : Takes (character :: rest) word token) (start : Nat) :
    Lexeme.first start character rest = ⟨token, start, word⟩ := by
  unfold Lexeme.first
  cases takes with
  | @word rule _ _ _ longest makes =>
      rw [TokenRule.longestOf_all_eq_some_iff.2 longest]
      simp only [(TokenRule.makes_iff longest.member longest.describes).1 makes]
  | stray visible unmatched => rw [TokenRule.longestOf_all_eq_none_iff.2 unmatched]

/-- A text that starts with a visible character starts with a word. -/
theorem of_first {character : Char} (visible : IsVisible character) (start : Nat)
    (rest : List Char) : Takes (character :: rest) (Lexeme.first start character rest).text
      (Lexeme.first start character rest).token := by
  unfold Lexeme.first
  split
  · next unmatched => exact .stray visible (TokenRule.longestOf_all_eq_none_iff.1 unmatched)
  · next rule matched found =>
      have longest := TokenRule.longestOf_all_eq_some_iff.1 found
      exact .word longest ((TokenRule.makes_iff longest.member longest.describes).2 rfl)

/-- Only oversized literals and unmatched characters make invalid tokens. -/
theorem invalid_iff (takes : Takes text word token) :
    token = .invalid ↔ Oversized word ∨ TokenRule.Unmatched text := by
  cases takes with
  | @word rule _ _ _ longest makes =>
      obtain ⟨member, describes, begins, -⟩ := longest
      have matched : ¬TokenRule.Unmatched text := fun unmatched =>
        unmatched rule member word describes begins
      rw [or_iff_left matched]
      obtain rfl := (TokenRule.makes_iff member describes).1 makes
      exact ⟨TokenRule.oversized_of_invalid member describes,
        fun oversized => TokenRule.token_of_oversized oversized member describes⟩
  | stray visible unmatched => exact ⟨fun _ => .inr unmatched, fun _ => rfl⟩

end Takes

namespace Lexeme

/-- The scan passes over a gap. -/
theorem scan_gap {gap back : List Char} (skipped : Gap gap back) (start : Nat) :
    scan start (gap ++ back) = scan (start + byteCount gap) back := by
  induction skipped generalizing start with
  | nil => rfl
  | blank blank rest known =>
      rw [List.cons_append, scan, if_pos blank, known, byteCount_cons, Nat.add_assoc]
  | @comment body gap back inLine ended rest known =>
      have inside : ∀ character ∈ body, (fun found => found != '\n') character = true := by
        intro character member
        rw [bne_iff_ne]
        rintro rfl
        exact inLine member
      obtain ⟨taken, -⟩ := takeWhile_split inside fun character atHead => by
        simpa using ended character atHead
      rw [List.cons_append, List.append_assoc, scan, if_neg (by decide), if_pos (by decide)]
      simp only [taken, List.drop_left]
      rw [known, byteCount_cons, byteCount_append]
      simp only [Nat.add_assoc]

/-- The scan goes on behind the first word of a text. -/
theorem scan_takes {word rest : List Char} {token : Token} (takes : Takes (word ++ rest) word token)
    (start : Nat) : scan start (word ++ rest) =
      ⟨token, start, word⟩ :: scan (start + byteCount word) rest := by
  obtain ⟨nonempty, visible⟩ := takes.visible
  cases word with
  | nil => exact absurd rfl nonempty
  | cons first more =>
      obtain ⟨notBlank, noComment⟩ := visible first List.mem_cons_self
      rw [List.cons_append] at takes ⊢
      rw [scan, if_neg (by rw [notBlank]; exact Bool.false_ne_true), if_neg (by simpa using noComment)]
      simp only [takes.first_eq start, List.length_cons, Nat.add_sub_cancel, List.drop_left]
      rfl

end Lexeme

namespace Tokenized

variable {start : Nat} {text : List Char} {found : List Lexeme}

/-- A text is tokenized in one way only. -/
theorem eq_scan (tokenized : Tokenized start text found) : found = Lexeme.scan start text := by
  induction tokenized with
  | done skipped =>
      have passed := Lexeme.scan_gap skipped
      simp only [List.append_nil] at passed
      rw [passed, Lexeme.scan]
  | next skipped takes later known =>
      rw [Lexeme.scan_gap skipped, Lexeme.scan_takes takes, known]

/-- A blank in front belongs to the first gap. -/
theorem blank {character : Char} (blank : isBlank character = true)
    (tokenized : Tokenized (start + character.utf8Size) text found) :
    Tokenized start (character :: text) found := by
  generalize moved : start + character.utf8Size = behind at tokenized
  cases tokenized with
  | done skipped => exact .done (.blank blank skipped)
  | @next _ gap word rest token found skipped takes later =>
      subst moved
      rw [Nat.add_assoc start, ← byteCount_cons] at later ⊢
      exact .next (.blank blank skipped) takes later

/-- A comment in front belongs to the first gap. -/
theorem comment {body : List Char} (inLine : '\n' ∉ body) (ended : EndsLine text)
    (tokenized : Tokenized (start + byteCount ('#' :: body)) text found) :
    Tokenized start ('#' :: (body ++ text)) found := by
  generalize moved : start + byteCount ('#' :: body) = behind at tokenized
  cases tokenized with
  | done skipped =>
      exact .done (.comment inLine (by rwa [List.append_nil]) skipped)
  | @next _ gap word rest token found skipped takes later =>
      subst moved
      rw [Nat.add_assoc start, ← byteCount_append] at later ⊢
      rw [← List.append_assoc]
      exact .next (.comment inLine ended skipped) takes later

/-- Every text is tokenized by the scan. -/
theorem scan (start : Nat) (text : List Char) : Tokenized start text (Lexeme.scan start text) := by
  fun_induction Lexeme.scan start text with
  | case1 start => exact .done .nil
  | case2 start character rest blank known => exact known.blank blank
  | case3 start character rest visible sign body known =>
      obtain rfl : character = '#' := eq_of_beq sign
      have whole : body ++ rest.drop body.length = rest :=
        List.prefix_iff_eq_append.1 (List.takeWhile_prefix _)
      have dropped : rest.drop body.length = rest.dropWhile (· != '\n') :=
        List.append_cancel_left (whole.trans List.takeWhile_append_dropWhile.symm)
      have inLine : '\n' ∉ body := fun member => by
        have inside := List.mem_takeWhile_imp member
        cases inside
      have ended : EndsLine (rest.drop body.length) := by
        intro next atHead
        have stopped := List.head?_dropWhile_not (· != '\n') rest
        rw [← dropped, Option.mem_def.1 atHead] at stopped
        simpa using stopped
      rw [Nat.add_assoc, ← byteCount_cons] at known ⊢
      have tokenized := known.comment inLine ended
      rwa [whole] at tokenized
  | case4 start character rest visible word lexeme known =>
      have isVisible : IsVisible character := ⟨by simpa using visible, by simpa using word⟩
      have takes := Takes.of_first isVisible start rest
      have starts : lexeme.start = start := Lexeme.first_start start character rest
      have split : lexeme.text ++ rest.drop (lexeme.text.length - 1) = character :: rest :=
        Lexeme.first_append_drop start character rest
      have same : lexeme = ⟨lexeme.token, start + byteCount [], lexeme.text⟩ := by
        rw [byteCount, List.foldr_nil, Nat.add_zero, ← starts]
      have behind : lexeme.stop = start + byteCount [] + byteCount lexeme.text := by
        rw [same]
        rfl
      rw [← split] at takes
      rw [behind] at known
      have tokenized := Tokenized.next .nil takes known
      rw [List.nil_append, split, ← same, ← behind] at tokenized
      exact tokenized

/-- The words that are taken come one behind the other. -/
theorem start_le (tokenized : Tokenized start text found) :
    ∀ lexeme ∈ found, start ≤ lexeme.start := by
  induction tokenized with
  | done skipped => simp
  | next skipped takes later known =>
      refine List.forall_mem_cons.2 ⟨Nat.le_add_right _ _, fun lexeme member => ?_⟩
      have behind := known lexeme member
      omega

theorem pairwise (tokenized : Tokenized start text found) :
    found.Pairwise fun first second => first.stop ≤ second.start := by
  induction tokenized with
  | done skipped => exact .nil
  | next skipped takes later known => exact .cons later.start_le known

/-- Every token is taken from what is left of the text at its start. -/
theorem takes (tokenized : Tokenized start text found) : ∀ lexeme ∈ found, ∃ front back,
    text = front ++ (lexeme.text ++ back) ∧ lexeme.start = start + byteCount front ∧
      Takes (lexeme.text ++ back) lexeme.text lexeme.token := by
  induction tokenized with
  | done skipped => simp
  | @next start gap word rest token found skipped takes later known =>
      refine List.forall_mem_cons.2 ⟨⟨gap, rest, rfl, rfl, takes⟩, fun lexeme member => ?_⟩
      obtain ⟨front, back, rfl, starts, again⟩ := known lexeme member
      refine ⟨gap ++ (word ++ front), back, by simp only [List.append_assoc], ?_, again⟩
      rw [starts, byteCount_append, byteCount_append]
      omega

/-- A gap goes from the stop of the last token before it to the start of the first one after it. -/
theorem gap (tokenized : Tokenized start text found) {before after : List Lexeme}
    (split : found = before ++ after) : ∃ front gap back, text = front ++ (gap ++ back) ∧
      Gap gap back ∧ start + byteCount front = (before.getLast?.map Lexeme.stop).getD start ∧
      start + byteCount (front ++ gap) =
        (after.head?.map Lexeme.start).getD (start + byteCount text) := by
  induction tokenized generalizing before with
  | @done start gap skipped =>
      obtain ⟨rfl, rfl⟩ := List.append_eq_nil_iff.1 split.symm
      exact ⟨[], gap, [], by simp, skipped, rfl, rfl⟩
  | @next start gap word rest token found skipped takes later known =>
      cases before with
      | nil =>
          obtain rfl : _ = after := split
          exact ⟨[], gap, word ++ rest, rfl, skipped, rfl, rfl⟩
      | cons lexeme before =>
          obtain ⟨rfl, rfl⟩ := List.cons.inj split
          obtain ⟨front, inner, back, rfl, inside, stops, starts⟩ := known rfl
          have moved (more : List Char) : start + byteCount (gap ++ (word ++ more)) =
              start + byteCount gap + byteCount word + byteCount more := by
            simp only [byteCount_append, Nat.add_assoc]
          refine ⟨gap ++ (word ++ front), inner, back, by simp only [List.append_assoc], inside, ?_, ?_⟩
          · rw [moved, stops, List.getLast?_cons]
            cases before.getLast? <;> rfl
          · simp only [List.append_assoc, moved]
            exact starts

end Tokenized

/-- Tokenizing is maximal munch and loses no text. A text is tokenized in exactly one way. Each token
stands for a part of the text that is not empty: the longest word of a rule in what is left there, which
no other rule describes, or a character that no rule matches. The parts follow each other without
overlaps, and between them, before the first one and behind the last one there are only gaps, where no
rule matches. A token is invalid when its part is unmatched or an oversized literal. -/
theorem lexemes_maximal_munch (text : List Char) :
    (∀ found, Tokenized 0 text found ↔ found = lexemes text) ∧
    (∀ lexeme ∈ lexemes text, lexeme.start < lexeme.stop ∧ ∃ front back,
      text = front ++ (lexeme.text ++ back) ∧ lexeme.start = byteCount front ∧
      lexeme.stop = byteCount (front ++ lexeme.text) ∧
      Takes (lexeme.text ++ back) lexeme.text lexeme.token ∧
      (lexeme.token = .invalid ↔
        Oversized lexeme.text ∨ TokenRule.Unmatched (lexeme.text ++ back))) ∧
    (lexemes text).Pairwise (fun first second => first.stop ≤ second.start) ∧
    (∀ before after, lexemes text = before ++ after → ∃ front gap back,
      text = front ++ (gap ++ back) ∧ Gap gap back ∧
      byteCount front = (before.getLast?.map Lexeme.stop).getD 0 ∧
      byteCount (front ++ gap) = (after.head?.map Lexeme.start).getD (byteCount text)) ∧
    ∀ rule ∈ TokenRule.all, ∀ word, rule.Describes word →
      word ≠ [] ∧ ∀ character ∈ word, IsVisible character := by
  have tokenized := Tokenized.scan 0 text
  refine ⟨fun found => ⟨Tokenized.eq_scan, ?_⟩, fun lexeme member => ?_, tokenized.pairwise,
    fun before after split => ?_, fun rule member word describes => describes.visible member⟩
  · rintro rfl
    exact tokenized
  · obtain ⟨front, back, split, starts, takes⟩ := tokenized.takes lexeme member
    have positive := byteCount_pos takes.visible.1
    rw [Nat.zero_add] at starts
    refine ⟨?_, front, back, split, starts, ?_, takes, takes.invalid_iff⟩
    · rw [Lexeme.stop]
      omega
    · rw [Lexeme.stop, starts, byteCount_append]
  · obtain ⟨front, gap, back, parts, isGap, stops, starts⟩ := tokenized.gap split
    simp only [Nat.zero_add] at stops starts
    exact ⟨front, gap, back, parts, isGap, stops, starts⟩

/-- The letter of an end without a number makes a token of its own, and a comment lies behind it. -/
theorem lexemes_maximal_munch_suffix :
    let text := ['2', 'd', '6', 'H', ' ', '#']
    let pool : Lexeme := ⟨.dice ⟨2, 6, none⟩, 0, ['2', 'd', '6']⟩
    let letter : Lexeme := ⟨.invalid, 3, ['H']⟩
    lexemes text = [pool, letter] ∧ Tokenized 0 text [pool, letter] ∧
      (∃ front back, text = front ++ (pool.text ++ back) ∧
        Takes (pool.text ++ back) pool.text pool.token) ∧
      (∃ front gap back, text = front ++ (gap ++ back) ∧ Gap gap back ∧ byteCount front = 4) ∧
      TokenRule.dice.Describes pool.text ∧ ∀ character ∈ pool.text, IsVisible character := by
  intro text pool letter
  have found : lexemes text = [pool, letter] := by cbv
  obtain ⟨unique, each, -, gaps, visible⟩ := lexemes_maximal_munch text
  have describes : TokenRule.dice.Describes pool.text :=
    ⟨⟨['2'], ['6'], none⟩, ⟨by simp [Char.isDigit], ⟨by simp, by simp [Char.isDigit]⟩, by simp⟩, rfl⟩
  refine ⟨found, (unique _).2 found.symm, ?_, ?_, describes,
    (visible .dice (by simp [TokenRule.all]) pool.text describes).2⟩
  · obtain ⟨-, front, back, split, -, -, takes, -⟩ := each pool (by rw [found]; simp)
    exact ⟨front, back, split, takes⟩
  · obtain ⟨front, gap, back, split, isGap, stops, -⟩ := gaps [pool, letter] [] found
    exact ⟨front, gap, back, split, isGap, stops⟩

end DiceOdds
