/-!
The notation of vectors and of their types.
-/

namespace DiceOdds

/-- Commas separate the items, and braces surround them. -/
def bracedText (items : List String) : String :=
  "\x7b" ++ ", ".intercalate items ++ "\x7d"

end DiceOdds
