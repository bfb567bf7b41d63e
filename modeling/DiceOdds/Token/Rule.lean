import DiceOdds.Token

/-!
The rules for tokens. Each rule finds its longest match at the beginning of a text, and among all
rules the longest match makes the token.
-/

namespace DiceOdds

/-- Names start with a letter or an underscore. -/
def startsName (character : Char) : Bool :=
  character.isAlpha || character == '_'

/-- Names continue with letters, digits and underscores. -/
def continuesName (character : Char) : Bool :=
  character.isAlphanum || character == '_'

inductive TokenRule where
  | integer
  | dice
  | symbol (mark : Mark)
  | name
  | fixed (word : List Char) (token : Token)

namespace TokenRule

/-- These are the rules for words that always make the same token. -/
def fixedRules : List TokenRule :=
  [ .fixed ['t', 'r', 'u', 'e'] (.boolean true),
    .fixed ['f', 'a', 'l', 's', 'e'] (.boolean false),
    .fixed ['('] .leftParen,
    .fixed [')'] .rightParen,
    .fixed ['{'] .leftBrace,
    .fixed ['}'] .rightBrace,
    .fixed [','] .comma,
    .fixed [':'] .colon,
    .fixed [':', '='] .define,
    .fixed ['+'] (.operator .add),
    .fixed ['-'] (.operator .subtract),
    .fixed ['*'] (.operator .multiply),
    .fixed ['/'] (.operator .divide),
    .fixed ['<'] (.operator .less),
    .fixed ['>'] (.operator .greater),
    .fixed ['='] (.operator .equal),
    .fixed ['a', 'n', 'd'] (.operator .and),
    .fixed ['o', 'r'] (.operator .or) ]

def all : List TokenRule :=
  .integer :: .dice :: .symbol .tick :: .symbol .colon :: .name :: fixedRules

/-- This function finds the digits at the beginning of a text, if there are any. -/
def digits? (text : List Char) : Option (List Char) :=
  match text.takeWhile Char.isDigit with
  | [] => none
  | first :: rest => some (first :: rest)

/-- The number of kept dice belongs to a dice literal only if it has digits. -/
def keptSuffix : List Char → List Char
  | [] => []
  | letter :: rest =>
      match RollEnd.ofLetter? letter, digits? rest with
      | some _, some number => letter :: number
      | _, _ => []

def dice? (text : List Char) : Option (List Char) :=
  let count := text.takeWhile Char.isDigit
  match text.dropWhile Char.isDigit with
  | 'd' :: rest =>
      (digits? rest).map fun sides => count ++ 'd' :: (sides ++ keptSuffix (rest.drop sides.length))
  | _ => none

/-- This function finds a leading character with a name after it. -/
def marked? (mark : Char) : List Char → Option (List Char)
  | first :: second :: rest =>
      if first == mark && startsName second then
        some (first :: second :: rest.takeWhile continuesName)
      else none
  | _ => none

def markCharacter : Mark → Char
  | .tick => '\''
  | .colon => ':'

/-- This is the longest beginning of a text that a rule matches. -/
def longest? (rule : TokenRule) (text : List Char) : Option (List Char) :=
  match rule with
  | .integer => digits? text
  | .dice => dice? text
  | .symbol mark => marked? (markCharacter mark) text
  | .name => marked? '$' text
  | .fixed word _ => if word.isPrefixOf text then some word else none

/-- A matched text makes an invalid token when one of its numbers is not representable. -/
def token (rule : TokenRule) (matched : List Char) : Token :=
  match rule with
  | .integer =>
      match Numeral.read matched with
      | .ok number => .integer number
      | .error _ => .invalid
  | .dice =>
      match DicePool.read matched with
      | .ok pool => .dice pool
      | .error _ => .invalid
  | .symbol mark => .symbol ⟨String.ofList (matched.drop 1), mark⟩
  | .name => .name (String.ofList (matched.drop 1))
  | .fixed _ token => token

/-- Of two rules with matches of equal length the first one counts. -/
def longestOf (text : List Char) : List TokenRule → Option (TokenRule × List Char)
  | [] => none
  | rule :: rest =>
      match rule.longest? text, longestOf text rest with
      | none, later => later
      | some matched, none => some (rule, matched)
      | some matched, some later =>
          if matched.length < later.2.length then some later else some (rule, matched)

end TokenRule

end DiceOdds
