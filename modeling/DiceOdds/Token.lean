import DiceOdds.Dice.Pool
import DiceOdds.Operator
import DiceOdds.Symbol

/-!
The tokens of the language and the lexemes that carry them in a text.
-/

namespace DiceOdds

inductive Token where
  | integer (number : Int)
  | dice (pool : DicePool)
  | symbol (symbol : Symbol)
  | name (name : String)
  | boolean (truth : Bool)
  | leftParen
  | rightParen
  | leftBrace
  | rightBrace
  | comma
  | colon
  | define
  | operator (operator : Operator)
  | invalid

/-- A kind is a token without what it carries. -/
inductive TokenKind where
  | integer
  | dice
  | symbol
  | name
  | boolean (truth : Bool)
  | leftParen
  | rightParen
  | leftBrace
  | rightBrace
  | comma
  | colon
  | define
  | operator (operator : Operator)
  | invalid
  deriving DecidableEq

def Token.kind : Token → TokenKind
  | .integer _ => .integer
  | .dice _ => .dice
  | .symbol _ => .symbol
  | .name _ => .name
  | .boolean truth => .boolean truth
  | .leftParen => .leftParen
  | .rightParen => .rightParen
  | .leftBrace => .leftBrace
  | .rightBrace => .rightBrace
  | .comma => .comma
  | .colon => .colon
  | .define => .define
  | .operator sign => .operator sign
  | .invalid => .invalid

namespace TokenKind

def text : TokenKind → String
  | .integer => "<integer>"
  | .dice => "<dice>"
  | .symbol => "<symbol>"
  | .name => "<name>"
  | .boolean true => "'true'"
  | .boolean false => "'false'"
  | .leftParen => "'('"
  | .rightParen => "')'"
  | .leftBrace => "'\x7b'"
  | .rightBrace => "'\x7d'"
  | .comma => "','"
  | .colon => "':'"
  | .define => "':='"
  | .operator sign => "'" ++ sign.text ++ "'"
  | .invalid => "<error>"

end TokenKind

/-- This is the number of bytes that a text occupies. -/
def byteCount (text : List Char) : Nat :=
  text.foldr (fun character sum => character.utf8Size + sum) 0

/-- A lexeme is a token with the text it was read from and the byte where this text starts. -/
structure Lexeme where
  token : Token
  start : Nat
  text : List Char

def Lexeme.stop (lexeme : Lexeme) : Nat :=
  lexeme.start + byteCount lexeme.text

end DiceOdds
