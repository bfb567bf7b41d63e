import DiceOdds.Text.Unprintable

/-!
Quoted text. Quotes and backslashes are escaped, and so is every character without a glyph of its
own.
-/

namespace DiceOdds

namespace Quoted

/-- This is the code point of a character in hexadecimal digits. -/
def codePoint (character : Char) : List Char :=
  ['\\', 'u', '\x7b'] ++ Nat.toDigits 16 character.toNat ++ ['\x7d']

def escape (character : Char) : List Char :=
  match character with
  | '\x00' => ['\\', '0']
  | '\t' => ['\\', 't']
  | '\r' => ['\\', 'r']
  | '\n' => ['\\', 'n']
  | '\\' => ['\\', '\\']
  | '"' => ['\\', '"']
  | _ => if isUnprintable character then codePoint character else [character]

end Quoted

def quote (text : List Char) : String :=
  String.ofList ('"' :: (text.flatMap Quoted.escape ++ ['"']))

end DiceOdds
