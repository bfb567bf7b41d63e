import DiceOdds.Token.Rule

/-!
Reading a text as lexemes. Blanks and comments stand between lexemes and are dropped; a character
at which no rule matches makes an invalid token of its own.
-/

namespace DiceOdds

def isBlank (character : Char) : Bool :=
  character == ' ' || character == '\t' || character == '\r' || character == '\n'

namespace Lexeme

/-- This is the lexeme at the beginning of a text with the given first character. -/
def first (start : Nat) (character : Char) (rest : List Char) : Lexeme :=
  match TokenRule.longestOf (character :: rest) TokenRule.all with
  | none => ⟨.invalid, start, [character]⟩
  | some (rule, matched) => ⟨rule.token matched, start, matched⟩

/-- A comment starts at a number sign and ends before the next line break. -/
def scan (start : Nat) (text : List Char) : List Lexeme :=
  match text with
  | [] => []
  | character :: rest =>
      if isBlank character then scan (start + character.utf8Size) rest
      else if character == '#' then
        let comment := rest.takeWhile (· != '\n')
        scan (start + character.utf8Size + byteCount comment) (rest.drop comment.length)
      else
        let lexeme := first start character rest
        lexeme :: scan lexeme.stop (rest.drop (lexeme.text.length - 1))
termination_by text.length
decreasing_by
  · simp
  · simp only [List.length_drop, List.length_cons]
    omega
  · simp only [List.length_drop, List.length_cons]
    omega

end Lexeme

/-- These are the lexemes of a whole text. -/
def lexemes (text : List Char) : List Lexeme :=
  Lexeme.scan 0 text

end DiceOdds
