import DiceOdds.Proofs.RuleLanguage

/-
This file reads tokens back from the words that show them: signs and operators, numbers, dice pools,
symbols and names. A word that could go on is ended by a delimiter.
-/

namespace DiceOdds

theorem starts_blank : Starts [' '] [] :=
  fun tail => tokensOf_blank rfl tail

/-- These words make the same token whatever follows them. -/
def plainWords : List (List Char × Token) :=
  [ (['('], .leftParen),
    ([')'], .rightParen),
    (['\x7b'], .leftBrace),
    (['\x7d'], .rightBrace),
    ([','], .comma),
    ([':', '='], .define),
    (['t', 'r', 'u', 'e'], .boolean true),
    (['f', 'a', 'l', 's', 'e'], .boolean false) ]

theorem starts_plain {word : List Char} {token : Token} (plain : (word, token) ∈ plainWords) :
    Starts word [token] := by
  intro tail
  have chosen : isWord word = true ∧
      TokenRule.longestOf (word ++ tail) TokenRule.all = some (.fixed word token, word) := by
    simp only [plainWords, List.mem_cons, Prod.mk.injEq, List.not_mem_nil, or_false] at plain
    rcases plain with ⟨rfl, rfl⟩ | ⟨rfl, rfl⟩ | ⟨rfl, rfl⟩ | ⟨rfl, rfl⟩ | ⟨rfl, rfl⟩ | ⟨rfl, rfl⟩ |
      ⟨rfl, rfl⟩ | ⟨rfl, rfl⟩ <;> refine ⟨rfl, ?_⟩ <;> cases tail <;> rfl
  exact tokensOf_word chosen.1 chosen.2

/-- Round brackets around a text are the tokens of a group. -/
theorem Lexes.enclosed {text : List Char} {tokens : List Token} (lexes : Lexes text tokens) :
    Lexes ('(' :: (text ++ [')'])) (.leftParen :: (tokens ++ [.rightParen])) := by
  have opened : Starts ['('] [.leftParen] := starts_plain (by simp [plainWords])
  have closed : Starts [')'] [.rightParen] := starts_plain (by simp [plainWords])
  exact (opened.append (lexes.append_starts (.inr (.inl rfl)) closed)).lexes

/-- A colon with a blank after it marks no symbol. -/
theorem starts_colon : Starts [':', ' '] [.colon] := by
  intro tail
  have chosen : TokenRule.longestOf ([':'] ++ ' ' :: tail) TokenRule.all =
      some (.fixed [':'] .colon, [':']) := rfl
  have colon := tokensOf_word rfl chosen
  exact colon.trans (congrArg _ (tokensOf_blank rfl tail))

/-- These are the characters of the notation of an operator. -/
def operatorWord : Operator → List Char
  | .add => ['+']
  | .subtract => ['-']
  | .multiply => ['*']
  | .divide => ['/']
  | .less => ['<']
  | .greater => ['>']
  | .equal => ['=']
  | .and => ['a', 'n', 'd']
  | .or => ['o', 'r']

theorem toList_operatorText (operator : Operator) :
    operator.text.toList = operatorWord operator := by
  cases operator <;> simp [Operator.text, operatorWord]

theorem starts_operator (operator : Operator) :
    Starts operator.text.toList [.operator operator] := by
  intro tail
  rw [toList_operatorText]
  have visible : isWord (operatorWord operator) = true := by cases operator <;> rfl
  have chosen : TokenRule.longestOf (operatorWord operator ++ tail) TokenRule.all =
      some (.fixed (operatorWord operator) (.operator operator), operatorWord operator) := by
    cases operator <;> cases tail <;> rfl
  exact tokensOf_word visible chosen

/-- No word of a rule goes on with a delimiter. -/
theorem TokenRule.IsSpelled.not_delimiter {word : List Char} (spelled : TokenRule.IsSpelled word) :
    ∀ character ∈ word.tail, ¬IsDelimiter character := by
  intro character inside delimiter
  rcases spelled.continues character inside with continues | rfl
  · rcases delimiter with rfl | rfl | rfl | rfl | rfl <;> cases continues
  · rcases delimiter with impossible | impossible | impossible | impossible | impossible <;>
      cases impossible

/-- In front of a delimiter a whole word is the longest one. -/
theorem TokenRule.Describes.isLongest {rule : TokenRule} {word tail : List Char}
    (describes : rule.Describes word) (member : rule ∈ TokenRule.all) (delimited : Delimited tail) :
    rule.IsLongest word (word ++ tail) := by
  refine ⟨member, describes, List.prefix_append _ _, fun other listed also again begins => ?_⟩
  rcases Nat.lt_or_ge also.length word.length with shorter | longer
  · exact .inl shorter
  · obtain ⟨more, rfl⟩ := List.prefix_of_prefix_length_le (List.prefix_append word tail) begins longer
    cases more with
    | nil =>
        rw [List.append_nil] at again ⊢
        exact .inr ⟨rfl, TokenRule.describes_unique listed member again describes⟩
    | cons next more =>
        obtain ⟨rest, rfl⟩ := (List.prefix_append_right_inj word).1 begins
        have inside : next ∈ (word ++ next :: more).tail := by
          rw [List.tail_append_of_ne_nil (describes.isSpelled member).nonempty]
          exact List.mem_append_right _ List.mem_cons_self
        exact absurd (delimited next rfl) ((again.isSpelled listed).not_delimiter next inside)

/-- A word of a rule makes its token in front of a delimiter. -/
theorem lexes_word {rule : TokenRule} {word : List Char} (member : rule ∈ TokenRule.all)
    (describes : rule.Describes word) : Lexes word [rule.token word] := by
  intro tail delimited
  refine tokensOf_word ?_ (TokenRule.longestOf_all_eq_some_iff.2 (describes.isLongest member delimited))
  obtain ⟨nonempty, visible⟩ := describes.visible member
  cases word with
  | nil => exact absurd rfl nonempty
  | cons first rest => simpa [isWord, IsVisible] using visible first List.mem_cons_self

/-- The text of a number is read as this number. -/
theorem lexes_integer {number : Int} (written : Written number) :
    Lexes (toString number).toList [.integer number] := by
  have describes : TokenRule.integer.Describes (toString number).toList :=
    Numeral.isNumeral_toString written.1
  have lexes := lexes_word (by simp [TokenRule.all]) describes
  rwa [TokenRule.token, Numeral.read_toString written.representable] at lexes

/-- The text of a pool is read as this pool. -/
theorem lexes_pool {pool : DicePool} (written : pool.Written) :
    Lexes pool.text.toList [.dice pool] := by
  have isPool : DicePool.IsPool pool.text.toList := by
    rw [DicePool.toList_text]
    exact .mk (Numeral.isNumeral_toString written.count.1).decimal
      (Numeral.isNumeral_toString written.sides.1) (DicePool.isKept_keptText written)
  have describes : TokenRule.dice.Describes pool.text.toList := isPool.exists_parts
  have lexes := lexes_word (by simp [TokenRule.all]) describes
  rwa [TokenRule.token, DicePool.read_text written.inRange] at lexes

/-- A mark and a name are read as this symbol. -/
theorem lexes_symbol {symbol : Symbol} (written : symbol.Written) :
    Lexes symbol.text.toList [.symbol symbol] := by
  obtain ⟨name, mark⟩ := symbol
  have text : (Symbol.mk name mark).text.toList = TokenRule.markCharacter mark :: name.toList := by
    change (mark.text ++ name).toList = _
    rw [String.toList_append]
    cases mark <;> simp [Mark.text, TokenRule.markCharacter]
  have describes : (TokenRule.symbol mark).Describes (Symbol.mk name mark).text.toList :=
    ⟨name, written, text.symm⟩
  have lexes := lexes_word (by cases mark <;> simp [TokenRule.all]) describes
  rwa [TokenRule.token, text, List.drop_one, List.tail_cons, String.ofList_toList, ← text] at lexes

/-- A name after a dollar sign is read as this name. -/
theorem lexes_name {name : String} (written : IsName name) :
    Lexes ("$" ++ name).toList [.name name] := by
  have text : ("$" ++ name).toList = '$' :: name.toList := by
    rw [String.toList_append]
    rfl
  have describes : TokenRule.name.Describes ("$" ++ name).toList := ⟨name, written, text.symm⟩
  have lexes := lexes_word (by simp [TokenRule.all]) describes
  rwa [TokenRule.token, text, List.drop_one, List.tail_cons, String.ofList_toList, ← text] at lexes

end DiceOdds
