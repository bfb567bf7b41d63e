import DiceOdds.Proofs.PoolText
import DiceOdds.Token.Scan
import Mathlib.Data.List.TakeWhile

/-
This file follows the longest rule through a text. Texts that have their tokens in front of every
delimiter can be put together, and the tokens of every text can be written again.
-/

namespace DiceOdds

namespace TokenRule

/-- The chosen rule is one of the rules and matches what was chosen. -/
theorem mem_of_longestOf {text matched : List Char} {rules : List TokenRule} {rule : TokenRule}
    (found : longestOf text rules = some (rule, matched)) :
    rule ∈ rules ∧ rule.longest? text = some matched := by
  induction rules with
  | nil => cases found
  | cons head rest known =>
      have later (chosen : longestOf text rest = some (rule, matched)) :
          rule ∈ head :: rest ∧ rule.longest? text = some matched :=
        ⟨List.mem_cons_of_mem _ (known chosen).1, (known chosen).2⟩
      rw [longestOf] at found
      split at found
      · exact later found
      · next own matches' _ =>
          cases found
          exact ⟨List.mem_cons_self, matches'⟩
      · next own other matches' chosen =>
          split at found
          · rw [found] at chosen
            exact later chosen
          · cases found
            exact ⟨List.mem_cons_self, matches'⟩

end TokenRule

/-- These are the tokens of a text. -/
def tokensOf (text : List Char) : List Token :=
  (lexemes text).map Lexeme.token

/-- The first lexeme is the same wherever the text starts. -/
theorem Lexeme.first_congr (start other : Nat) (character : Char) (rest : List Char) :
    (first start character rest).token = (first other character rest).token ∧
      (first start character rest).text = (first other character rest).text := by
  unfold first
  split <;> exact ⟨rfl, rfl⟩

/-- The tokens of a text do not depend on where it starts. -/
theorem scan_map_token (start other : Nat) (text : List Char) :
    (Lexeme.scan start text).map Lexeme.token = (Lexeme.scan other text).map Lexeme.token := by
  fun_induction Lexeme.scan start text generalizing other with
  | case1 start => rw [Lexeme.scan]
  | case2 start character rest blank known =>
      rw [known, Lexeme.scan, if_pos blank]
  | case3 start character rest visible comment skipped known =>
      rw [known, Lexeme.scan, if_neg visible, if_pos comment]
  | case4 start character rest visible word lexeme known =>
      obtain ⟨sameToken, sameText⟩ := Lexeme.first_congr start other character rest
      rw [List.map_cons, known (Lexeme.first other character rest).stop]
      rw [Lexeme.scan, if_neg visible, if_neg word, List.map_cons, ← sameToken, ← sameText]

theorem tokensOf_nil : tokensOf [] = [] := by
  rw [tokensOf, lexemes, Lexeme.scan, List.map_nil]

theorem tokensOf_blank {character : Char} (blank : isBlank character = true) (rest : List Char) :
    tokensOf (character :: rest) = tokensOf rest := by
  rw [tokensOf, lexemes, Lexeme.scan, if_pos blank]
  exact scan_map_token _ _ rest

/-- A word starts with a character that is neither blank nor the start of a comment. -/
def isWord : List Char → Bool
  | [] => false
  | first :: _ => !isBlank first && first != '#'

/-- A word that is chosen makes its token, and the rest follows. -/
theorem tokensOf_word {word tail : List Char} {rule : TokenRule} (visible : isWord word = true)
    (found : TokenRule.longestOf (word ++ tail) TokenRule.all = some (rule, word)) :
    tokensOf (word ++ tail) = rule.token word :: tokensOf tail := by
  cases word with
  | nil => cases visible
  | cons first rest =>
      obtain ⟨notBlank, noComment⟩ : isBlank first = false ∧ (first == '#') = false := by
        simpa [isWord] using visible
      rw [List.cons_append] at found ⊢
      have lexeme : Lexeme.first 0 first (rest ++ tail) =
          ⟨rule.token (first :: rest), 0, first :: rest⟩ := by
        rw [Lexeme.first, found]
      rw [tokensOf, lexemes, Lexeme.scan, notBlank, noComment]
      simp only [Bool.false_eq_true, if_false, lexeme, List.map_cons, List.length_cons,
        Nat.add_sub_cancel, List.drop_left]
      exact congrArg _ (scan_map_token _ _ tail)

/-- A delimiter ends every word in front of it. -/
def IsDelimiter (character : Char) : Prop :=
  character = ' ' ∨ character = ')' ∨ character = '}' ∨ character = ',' ∨ character = ':'

/-- A delimited rest is empty or starts with a delimiter. -/
def Delimited (tail : List Char) : Prop :=
  ∀ character ∈ tail.head?, IsDelimiter character

/-- A text starts with tokens when these do not depend on what follows. -/
def Starts (text : List Char) (tokens : List Token) : Prop :=
  ∀ tail, tokensOf (text ++ tail) = tokens ++ tokensOf tail

/-- A text has tokens when it starts with them in front of every delimiter. -/
def Lexes (text : List Char) (tokens : List Token) : Prop :=
  ∀ tail, Delimited tail → tokensOf (text ++ tail) = tokens ++ tokensOf tail

namespace Starts

variable {text more : List Char} {tokens others : List Token}

theorem lexes (starts : Starts text tokens) : Lexes text tokens :=
  fun tail _ => starts tail

theorem append (starts : Starts text tokens) (next : Starts more others) :
    Starts (text ++ more) (tokens ++ others) := by
  intro tail
  rw [List.append_assoc, starts, next, List.append_assoc]

theorem append_lexes (starts : Starts text tokens) (next : Lexes more others) :
    Lexes (text ++ more) (tokens ++ others) := by
  intro tail delimited
  rw [List.append_assoc, starts, next tail delimited, List.append_assoc]

end Starts

/-- A text has tokens in front of a text that starts with a delimiter. -/
theorem Lexes.append_starts {text more : List Char} {tokens others : List Token} {first : Char}
    (lexes : Lexes text tokens) (delimiter : IsDelimiter first)
    (next : Starts (first :: more) others) :
    Starts (text ++ first :: more) (tokens ++ others) := by
  intro tail
  have delimited : Delimited (first :: more ++ tail) := by
    rintro _ ⟨⟩
    exact delimiter
  rw [List.append_assoc, lexes _ delimited, next, List.append_assoc]

theorem Lexes.tokensOf {text : List Char} {tokens : List Token} (lexes : Lexes text tokens) :
    DiceOdds.tokensOf text = tokens := by
  have ended := lexes [] (by simp [Delimited])
  rwa [List.append_nil, tokensOf_nil, List.append_nil] at ended

/-- A name starts and goes on with the characters for that. -/
def IsName (name : String) : Prop :=
  ∃ first rest, name.toList = first :: rest ∧ startsName first = true ∧
    ∀ character ∈ rest, continuesName character = true

/-- A symbol can be written when it has a name behind its mark. -/
def Symbol.Written (symbol : Symbol) : Prop :=
  IsName symbol.name

/-- The tokens that are read from a text can be written again. -/
def Token.Written : Token → Prop
  | .integer number => DiceOdds.Written number
  | .dice pool => pool.Written
  | .symbol category => category.Written
  | .name bound => IsName bound
  | _ => True

namespace TokenRule

theorem digits?_isNumeral {text digits : List Char} (found : digits? text = some digits) :
    IsNumeral digits := by
  unfold digits? at found
  split at found
  · cases found
  · next first rest taken =>
      cases found
      refine ⟨List.cons_ne_nil _ _, fun digit member => ?_⟩
      rw [← taken] at member
      exact List.mem_takeWhile_imp member

theorem keptSuffix_isKept (text : List Char) : DicePool.IsKept (keptSuffix text) := by
  unfold keptSuffix
  split
  · exact .none
  · next letter rest =>
      split
      · next rollEnd digits ofLetter found =>
          have same : letter = rollEnd.letter := by
            unfold RollEnd.ofLetter? at ofLetter
            split at ofLetter <;> cases ofLetter <;> rfl
          exact same ▸ .some rollEnd (digits?_isNumeral found)
      · exact .none

theorem dice?_isPool {text matched : List Char} (found : dice? text = some matched) :
    DicePool.IsPool matched := by
  unfold dice? at found
  dsimp only at found
  split at found
  · next rest dropped =>
      obtain ⟨sides, ofSides, rfl⟩ := Option.map_eq_some_iff.1 found
      exact .mk (fun digit member => List.mem_takeWhile_imp member) (digits?_isNumeral ofSides)
        (keptSuffix_isKept _)
  · cases found

theorem marked?_isName {text matched : List Char} {mark : Char}
    (found : marked? mark text = some matched) : IsName (String.ofList (matched.drop 1)) := by
  unfold marked? at found
  split at found
  · next first second rest =>
      split at found
      · next starts =>
          cases found
          refine ⟨second, rest.takeWhile continuesName, by simp, ?_, fun character member => ?_⟩
          · exact (Bool.and_eq_true_iff.1 starts).2
          · exact List.mem_takeWhile_imp member
      · cases found
  · cases found

/-- Every rule makes tokens that can be written again. -/
theorem token_written {text matched : List Char} {rule : TokenRule} (member : rule ∈ all)
    (found : rule.longest? text = some matched) : (rule.token matched).Written := by
  cases rule with
  | integer =>
      rw [token]
      split
      · next number read => exact Numeral.read_written (digits?_isNumeral found) read
      · trivial
  | dice =>
      rw [token]
      split
      · next pool read => exact DicePool.read_written (dice?_isPool found) read
      · trivial
  | symbol mark => exact marked?_isName found
  | name => exact marked?_isName found
  | fixed word token =>
      have plain : ∀ other ∈ all, ∀ (also : List Char) (made : Token), other = .fixed also made →
          made.Written := by
        simp [all, fixedRules, Token.Written]
      exact plain _ member word token rfl

end TokenRule

theorem first_written (start : Nat) (character : Char) (rest : List Char) :
    (Lexeme.first start character rest).token.Written := by
  unfold Lexeme.first
  split
  · trivial
  · next rule matched found =>
      obtain ⟨member, matches'⟩ := TokenRule.mem_of_longestOf found
      exact TokenRule.token_written member matches'

/-- Every token of a text can be written again. -/
theorem scan_written (start : Nat) (text : List Char) :
    ∀ lexeme ∈ Lexeme.scan start text, lexeme.token.Written := by
  fun_induction Lexeme.scan start text with
  | case1 start => simp
  | case2 start character rest blank known => exact known
  | case3 start character rest visible comment skipped known => exact known
  | case4 start character rest visible word lexeme known =>
      exact List.forall_mem_cons.2 ⟨first_written start character rest, known⟩

theorem tokensOf_written (text : List Char) : ∀ token ∈ tokensOf text, token.Written := by
  intro token member
  obtain ⟨lexeme, inside, rfl⟩ := List.mem_map.1 member
  exact scan_written 0 text lexeme inside

end DiceOdds
