import DiceOdds.Proofs.Span

/-
This file says which words a rule for tokens describes. A rule finds the longest of its words in front
of a text, no word is described by two rules, and the longest word of all rules decides about a token.
-/

namespace DiceOdds

/-- A visible character is neither blank nor the start of a comment. -/
def IsVisible (character : Char) : Prop :=
  isBlank character = false ∧ character ≠ '#'

instance (character : Char) : Decidable (IsVisible character) :=
  inferInstanceAs (Decidable (_ ∧ _))

theorem isVisible_of_class {class' : Char → Bool}
    (outside : [' ', '\t', '\r', '\n', '#'].any class' = false) {character : Char}
    (inside : class' character = true) : IsVisible character := by
  have apart : character ∉ [' ', '\t', '\r', '\n', '#'] := fun hidden =>
    List.any_eq_false.1 outside character hidden inside
  simp only [List.mem_cons, List.not_mem_nil, or_false, not_or] at apart
  simp [IsVisible, isBlank, apart]

theorem isVisible_of_continuesName {character : Char} (continues : continuesName character = true) :
    IsVisible character :=
  isVisible_of_class rfl continues

theorem continuesName_of_isDigit {character : Char} (digit : character.isDigit = true) :
    continuesName character = true := by
  rw [continuesName, Char.isAlphanum, digit, Bool.or_true, Bool.true_or]

theorem continuesName_of_startsName {character : Char} (starts : startsName character = true) :
    continuesName character = true := by
  unfold startsName at starts
  unfold continuesName Char.isAlphanum
  rw [Bool.or_eq_true] at starts ⊢
  exact starts.imp_left fun letter => by rw [letter]; rfl

theorem IsName.continues {name : String} (isName : IsName name) :
    ∀ character ∈ name.toList, continuesName character = true := by
  obtain ⟨first, rest, written, starts, continues⟩ := isName
  rw [written]
  exact List.forall_mem_cons.2 ⟨continuesName_of_startsName starts, continues⟩

namespace TokenRule

/-- A rule describes the words of its regular language. -/
def Describes : TokenRule → List Char → Prop
  | .integer, word => IsNumeral word
  | .dice, word => ∃ parts : PoolParts, parts.Plain ∧ parts.text = word
  | .symbol mark, word => ∃ name, IsName name ∧ markCharacter mark :: name.toList = word
  | .name, word => ∃ name, IsName name ∧ '$' :: name.toList = word
  | .fixed own _, word => own = word

section Words

/-- The words of the rules have visible characters, and behind the first one they go on like names or
with an equality sign. -/
structure IsSpelled (word : List Char) : Prop where
  nonempty : word ≠ []
  visible : ∀ character ∈ word, IsVisible character
  continues : ∀ character ∈ word.tail, continuesName character = true ∨ character = '='

/-- This is the word of a rule that has only one. -/
def fixedWord : TokenRule → List Char
  | .fixed word _ => word
  | _ => []

theorem mem_fixedRules {word : List Char} {token : Token} (member : .fixed word token ∈ all) :
    .fixed word token ∈ fixedRules := by
  simpa [all] using member

theorem isSpelled_fixedWord : ∀ rule ∈ fixedRules, IsSpelled rule.fixedWord := by
  have checked : (fixedRules.all fun rule => !rule.fixedWord.isEmpty &&
      (rule.fixedWord.all fun character => !isBlank character && character != '#') &&
      rule.fixedWord.tail.all fun character => continuesName character || character == '=') = true :=
    rfl
  intro rule member
  have ofRule := List.all_eq_true.1 checked rule member
  simp only [Bool.and_eq_true, List.all_eq_true, Bool.not_eq_true', List.isEmpty_eq_false_iff,
    bne_iff_ne, Bool.or_eq_true, beq_iff_eq] at ofRule
  exact ⟨ofRule.1.1, ofRule.1.2, ofRule.2⟩

theorem continuesName_of_plain {parts : PoolParts} (plain : parts.Plain) :
    ∀ character ∈ parts.text, continuesName character = true := by
  have digits {word : List Char} (decimal : ∀ digit ∈ word, digit.isDigit = true) :
      ∀ character ∈ word, continuesName character = true :=
    fun character member => continuesName_of_isDigit (decimal character member)
  rw [PoolParts.text]
  refine List.forall_mem_append.2 ⟨digits plain.count, List.forall_mem_cons.2 ⟨rfl, ?_⟩⟩
  refine List.forall_mem_append.2 ⟨digits plain.sides.decimal, ?_⟩
  unfold PoolParts.keptText
  split
  · simp
  · next rollEnd number chosen =>
      refine List.forall_mem_cons.2 ⟨?_, digits (plain.kept _ chosen).decimal⟩
      cases rollEnd <;> rfl

variable {rule : TokenRule} {word : List Char}

theorem Describes.isSpelled (describes : rule.Describes word) (member : rule ∈ all) :
    IsSpelled word := by
  have literal (nonempty : word ≠ [])
      (continues : ∀ character ∈ word, continuesName character = true) : IsSpelled word :=
    ⟨nonempty, fun character inside => isVisible_of_continuesName (continues character inside),
      fun character inside => .inl (continues character (List.mem_of_mem_tail inside))⟩
  have named {mark : Char} (visible : IsVisible mark)
      (isMarked : ∃ name, IsName name ∧ mark :: name.toList = word) : IsSpelled word := by
    obtain ⟨name, isName, rfl⟩ := isMarked
    refine ⟨List.cons_ne_nil _ _, List.forall_mem_cons.2 ⟨visible, ?_⟩, ?_⟩
    · exact fun character inside => isVisible_of_continuesName (isName.continues character inside)
    · exact fun character inside => .inl (isName.continues character inside)
  cases rule with
  | integer =>
      exact literal describes.nonempty fun digit inside =>
        continuesName_of_isDigit (describes.decimal digit inside)
  | dice =>
      obtain ⟨parts, plain, rfl⟩ := describes
      exact literal (by simp [PoolParts.text]) (continuesName_of_plain plain)
  | symbol mark => exact named (by cases mark <;> decide) describes
  | name => exact named (by decide) describes
  | fixed own token =>
      obtain rfl : own = word := describes
      exact isSpelled_fixedWord _ (mem_fixedRules member)

/-- The words of the rules are not empty and have visible characters only. -/
theorem Describes.visible (describes : rule.Describes word) (member : rule ∈ all) :
    word ≠ [] ∧ ∀ character ∈ word, IsVisible character :=
  ⟨(describes.isSpelled member).nonempty, (describes.isSpelled member).visible⟩

/-- The rule of a word follows from its first two characters, and from a delimiter between digits. -/
def ruleOf? (word : List Char) : Option TokenRule :=
  match word with
  | [] => none
  | first :: rest =>
      if first.isDigit || first == 'd' then
        if 'd' ∈ word then some .dice else some .integer
      else if first == '\'' then some (.symbol .tick)
      else if first == '$' then some .name
      else if first == ':' && rest.head?.any startsName then some (.symbol .colon)
      else fixedRules.find? fun rule => rule.fixedWord == word

theorem ruleOf?_fixedWord : ∀ rule ∈ fixedRules, ruleOf? rule.fixedWord = some rule := by
  simp only [fixedRules, List.forall_mem_cons]
  refine ⟨?_, ?_, ?_, ?_, ?_, ?_, ?_, ?_, ?_, ?_, ?_, ?_, ?_, ?_, ?_, ?_, ?_, ?_, by simp⟩ <;> rfl

theorem ruleOf?_of_describes (member : rule ∈ all) (describes : rule.Describes word) :
    ruleOf? word = some rule := by
  cases rule with
  | integer =>
      cases word with
      | nil => exact absurd rfl describes.nonempty
      | cons first rest =>
          have digit := describes.decimal first List.mem_cons_self
          have missing : 'd' ∉ first :: rest := fun inside => by
            cases describes.decimal 'd' inside
          rw [ruleOf?, digit, Bool.true_or, if_pos rfl, if_neg missing]
  | dice =>
      obtain ⟨parts, plain, rfl⟩ := describes
      have present : 'd' ∈ parts.text := by simp [PoolParts.text]
      obtain ⟨first, rest, written, leads⟩ : ∃ first rest, parts.text = first :: rest ∧
          (first.isDigit || first == 'd') = true := by
        cases counted : parts.count with
        | nil => exact ⟨'d', _, by rw [PoolParts.text, counted]; rfl, rfl⟩
        | cons first rest =>
            have digit := plain.count first (by rw [counted]; exact List.mem_cons_self)
            exact ⟨first, _, by rw [PoolParts.text, counted]; rfl, by rw [digit]; rfl⟩
      rw [written] at present ⊢
      rw [ruleOf?, leads, if_pos rfl, if_pos present]
  | symbol mark =>
      obtain ⟨name, ⟨first, rest, written, starts, -⟩, rfl⟩ := describes
      rw [written]
      cases mark with
      | tick => rfl
      | colon => simp [ruleOf?, markCharacter, starts, Char.isDigit]
  | name =>
      obtain ⟨name, isName, rfl⟩ := describes
      rfl
  | fixed own token =>
      obtain rfl : own = word := describes
      exact ruleOf?_fixedWord _ (mem_fixedRules member)

/-- No word is described by two rules. -/
theorem describes_unique {other : TokenRule} (member : rule ∈ all) (also : other ∈ all)
    (describes : rule.Describes word) (again : other.Describes word) : rule = other := by
  have same := ruleOf?_of_describes member describes
  rw [ruleOf?_of_describes also again] at same
  exact (Option.some.inj same).symm

end Words

section Matches

theorem digits?_of_isNumeral {digits : List Char} (numeral : IsNumeral digits) (tail : List Char) :
    digits? (digits ++ tail) = some (digits ++ tail.takeWhile Char.isDigit) := by
  rw [digits?, List.takeWhile_append_of_pos numeral.decimal]
  cases digits with
  | nil => exact absurd rfl numeral.nonempty
  | cons first rest => rfl

/-- The rule for dice finds a word that is at least as long as each of its words in front of a text. -/
theorem exists_dice? {parts : PoolParts} (plain : parts.Plain) (tail : List Char) :
    ∃ matched, dice? (parts.text ++ tail) = some matched ∧ parts.text.length ≤ matched.length := by
  have text : parts.text ++ tail =
      parts.count ++ 'd' :: (parts.sides ++ (parts.keptText ++ tail)) := by
    simp [PoolParts.text]
  have ended : ∀ character ∈ ('d' :: (parts.sides ++ (parts.keptText ++ tail))).head?,
      character.isDigit = false := by
    simp
  obtain ⟨taken, dropped⟩ := takeWhile_split plain.count ended
  obtain ⟨count, sides, kept⟩ := parts
  rw [text, dice?, dropped]
  simp only [taken]
  rw [digits?_of_isNumeral plain.sides, Option.map_some]
  refine ⟨_, rfl, ?_⟩
  rcases kept with _ | ⟨rollEnd, digits⟩
  · simp [PoolParts.text, PoolParts.keptText]
  · have stopped : (rollEnd.letter :: (digits ++ tail)).takeWhile Char.isDigit = [] := by
      cases rollEnd <;> rfl
    have rest : PoolParts.keptText ⟨count, sides, some (rollEnd, digits)⟩ ++ tail =
        rollEnd.letter :: (digits ++ tail) :=
      rfl
    have suffix : keptSuffix (rollEnd.letter :: (digits ++ tail)) =
        rollEnd.letter :: (digits ++ tail.takeWhile Char.isDigit) := by
      rw [keptSuffix, rollEnd.ofLetter?_letter, digits?_of_isNumeral (plain.kept _ rfl)]
    rw [rest, stopped, List.append_nil, List.drop_left, suffix]
    simp [PoolParts.text, PoolParts.keptText]

theorem exists_marked? {mark : Char} {name : String} (isName : IsName name) (tail : List Char) :
    ∃ matched, marked? mark (mark :: (name.toList ++ tail)) = some matched ∧
      (mark :: name.toList).length ≤ matched.length := by
  obtain ⟨first, rest, written, starts, continues⟩ := isName
  rw [written, List.cons_append, marked?, beq_self_eq_true, starts, Bool.true_and, if_pos rfl,
    List.takeWhile_append_of_pos continues]
  exact ⟨_, rfl, by simp⟩

/-- A rule finds a word that is at least as long as each of its words in front of a text. -/
theorem exists_longest? {rule : TokenRule} {word text : List Char} (describes : rule.Describes word)
    (begins : word <+: text) :
    ∃ matched, rule.longest? text = some matched ∧ word.length ≤ matched.length := by
  obtain ⟨tail, rfl⟩ := begins
  cases rule with
  | integer => exact ⟨_, digits?_of_isNumeral describes tail, by simp⟩
  | dice =>
      obtain ⟨parts, plain, rfl⟩ := describes
      exact exists_dice? plain tail
  | symbol mark =>
      obtain ⟨name, isName, rfl⟩ := describes
      exact exists_marked? isName tail
  | name =>
      obtain ⟨name, isName, rfl⟩ := describes
      exact exists_marked? isName tail
  | fixed own token =>
      obtain rfl : own = word := describes
      have begins : own.isPrefixOf (own ++ tail) = true :=
        List.isPrefixOf_iff_prefix.2 (List.prefix_append own tail)
      exact ⟨own, by rw [longest?, begins, if_pos rfl], Nat.le_refl _⟩

theorem marked?_describes {mark : Char} {text matched : List Char}
    (found : marked? mark text = some matched) :
    ∃ name, IsName name ∧ mark :: name.toList = matched := by
  refine ⟨_, marked?_isName found, ?_⟩
  unfold marked? at found
  split at found
  · split at found
    · next first second rest starts =>
        cases found
        have same : first = mark := eq_of_beq (Bool.and_eq_true_iff.1 starts).1
        simp [same]
    · cases found
  · cases found

/-- What a rule finds is one of its words. -/
theorem longest?_describes {rule : TokenRule} {text matched : List Char}
    (found : rule.longest? text = some matched) : rule.Describes matched := by
  cases rule with
  | integer => exact digits?_isNumeral found
  | dice => exact (dice?_isPool found).exists_parts
  | symbol mark => exact marked?_describes found
  | name => exact marked?_describes found
  | fixed own token =>
      rw [longest?] at found
      split at found
      · exact Option.some.inj found
      · cases found

variable {text matched : List Char} {rules : List TokenRule} {rule : TokenRule}

theorem longestOf_eq_none_iff :
    longestOf text rules = none ↔ ∀ rule ∈ rules, rule.longest? text = none := by
  induction rules with
  | nil => simp [longestOf]
  | cons head rest known =>
      rw [longestOf, List.forall_mem_cons, ← known]
      cases head.longest? text <;> cases longestOf text rest <;> simp
      split <;> simp

/-- No rule finds more than the chosen one. -/
theorem le_of_longestOf (found : longestOf text rules = some (rule, matched)) :
    ∀ other ∈ rules, ∀ also ∈ other.longest? text, also.length ≤ matched.length := by
  induction rules generalizing rule matched with
  | nil => simp
  | cons head rest known =>
      rw [longestOf] at found
      rw [List.forall_mem_cons]
      cases own : head.longest? text with
      | none =>
          simp only [own] at found
          exact ⟨by simp, known found⟩
      | some first =>
          cases chosen : longestOf text rest with
          | none =>
              simp only [own, chosen, Option.some.injEq, Prod.mk.injEq] at found
              obtain ⟨rfl, rfl⟩ := found
              have unmatched := longestOf_eq_none_iff.1 chosen
              exact ⟨by simp, fun other member => by simp [unmatched other member]⟩
          | some later =>
              have bounded := known chosen
              simp only [own, chosen] at found
              split at found
              · next shorter =>
                  cases found
                  exact ⟨by simpa using Nat.le_of_lt shorter, bounded⟩
              · next notShorter =>
                  cases found
                  refine ⟨by simp, fun other member also matches' => ?_⟩
                  exact Nat.le_trans (bounded other member also matches') (Nat.not_lt.1 notShorter)

end Matches

/-- The longest word in front of a text is longer than every other word of a rule there, and no other
rule describes it. -/
structure IsLongest (rule : TokenRule) (word text : List Char) : Prop where
  member : rule ∈ all
  describes : rule.Describes word
  begins : word <+: text
  longer : ∀ other ∈ all, ∀ also, other.Describes also → also <+: text →
    also.length < word.length ∨ also = word ∧ other = rule

/-- No rule describes a word in front of an unmatched text. -/
def Unmatched (text : List Char) : Prop :=
  ∀ rule ∈ all, ∀ word, rule.Describes word → ¬word <+: text

section Longest

variable {text word other : List Char} {rule another : TokenRule}

theorem IsLongest.unique (longest : rule.IsLongest word text) (also : another.IsLongest other text) :
    word = other ∧ rule = another := by
  have above := longest.longer another also.member other also.describes also.begins
  have below := also.longer rule longest.member word longest.describes longest.begins
  rcases above with shorter | ⟨rfl, rfl⟩
  · rcases below with longer | ⟨rfl, rfl⟩
    · omega
    · exact ⟨rfl, rfl⟩
  · exact ⟨rfl, rfl⟩

theorem longestOf_all_eq_none_iff : longestOf text all = none ↔ Unmatched text := by
  rw [longestOf_eq_none_iff]
  constructor
  · intro unmatched rule member word describes begins
    obtain ⟨matched, found, -⟩ := exists_longest? describes begins
    rw [unmatched rule member] at found
    cases found
  · intro unmatched rule member
    cases found : rule.longest? text with
    | none => rfl
    | some matched =>
        exact absurd (longest?_begins member found).2
          (unmatched rule member matched (longest?_describes found))

theorem isLongest_of_longestOf (found : longestOf text all = some (rule, word)) :
    rule.IsLongest word text := by
  obtain ⟨member, own⟩ := mem_of_longestOf found
  have begins := (longest?_begins member own).2
  refine ⟨member, longest?_describes own, begins, fun other listed also describes alsoBegins => ?_⟩
  obtain ⟨matched, matches', longer⟩ := exists_longest? describes alsoBegins
  have bounded := le_of_longestOf found other listed matched matches'
  rcases Nat.lt_or_ge also.length word.length with shorter | equal
  · exact .inl shorter
  · have same : also = word :=
      (List.prefix_of_prefix_length_le alsoBegins begins (by omega)).eq_of_length (by omega)
    subst same
    exact .inr ⟨rfl, describes_unique listed member describes (longest?_describes own)⟩

/-- The rules choose the longest word in front of a text. -/
theorem longestOf_all_eq_some_iff : longestOf text all = some (rule, word) ↔
    rule.IsLongest word text := by
  refine ⟨isLongest_of_longestOf, fun longest => ?_⟩
  cases found : longestOf text all with
  | none =>
      exact absurd longest.begins
        (longestOf_all_eq_none_iff.1 found rule longest.member word longest.describes)
  | some chosen =>
      obtain ⟨rfl, rfl⟩ := longest.unique (isLongest_of_longestOf found)
      rfl

end Longest

end TokenRule

end DiceOdds
