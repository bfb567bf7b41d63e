import DiceOdds.Statement.Reader
import DiceOdds.Text.Quoted
import DiceOdds.Token.Scan

/-!
Statements from source text, and the errors that point at the first bad lexeme.
-/

namespace DiceOdds

/-- A text is refused at a token that may not come here, at its end, or at no token at all. -/
inductive SourceProblem where
  | unexpectedToken (found : Token) (expected : List Expectation)
  | unexpectedEnd (expected : List Expectation)
  | invalidToken

/-- An error covers the bytes from start to stop, and the text between them. -/
structure SourceError where
  problem : SourceProblem
  start : Nat
  stop : Nat
  text : List Char

/-- Two alternatives are joined by a word; more of them are separated by commas as well. -/
def alternativesText : List String → String
  | [] => ""
  | [only] => only
  | [first, second] => first ++ " or " ++ second
  | alternatives =>
      String.join (alternatives.dropLast.map fun alternative => alternative ++ ", ") ++ "or " ++
        alternatives.getLastD ""

namespace SourceProblem

def message : SourceProblem → String
  | .unexpectedToken found expected =>
      "unexpected token: found " ++ found.kind.text ++ ", expected " ++
        alternativesText (expected.map Expectation.text)
  | .unexpectedEnd expected =>
      "unexpected end of input, expected " ++ alternativesText (expected.map Expectation.text)
  | .invalidToken => "invalid token"

end SourceProblem

namespace SourceError

def message (error : SourceError) : String :=
  "error at position " ++ toString error.start ++ " (" ++ quote error.text ++ "): " ++
    error.problem.message

/-- The lexeme at fault is the first of those that the obstacle left over. -/
def ofObstacle (text : List Char) (found : List Lexeme) (obstacle : Obstacle) : SourceError :=
  match found.drop (found.length - obstacle.rest.length) with
  | [] => ⟨.unexpectedEnd obstacle.expected, byteCount text, byteCount text, []⟩
  | lexeme :: _ =>
      let problem := match lexeme.token with
        | .invalid => .invalidToken
        | token => .unexpectedToken token obstacle.expected
      ⟨problem, lexeme.start, lexeme.stop, lexeme.text⟩

end SourceError

/-- This function reads a statement from its text. -/
def Statement.ofSource (text : List Char) : Except SourceError Statement :=
  let found := lexemes text
  (Statement.read (found.map Lexeme.token)).mapError (SourceError.ofObstacle text found)

end DiceOdds
