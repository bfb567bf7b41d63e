import DiceOdds.Integer.Numeral

/-!
Dice pools as written: `3d6`, `d20`, `4d6H3`, `2d20L1`. The count may be left out and is one then;
a pool may keep its highest or its lowest dice only.
-/

namespace DiceOdds

/-- A pool keeps dice from one end of its sorted roll. -/
inductive RollEnd where
  | highest
  | lowest
  deriving DecidableEq

def RollEnd.letter : RollEnd → Char
  | .highest => 'H'
  | .lowest => 'L'

/-- The letter of an end starts the number of kept dice. -/
def RollEnd.ofLetter? : Char → Option RollEnd
  | 'H' => some .highest
  | 'L' => some .lowest
  | _ => none

structure DicePool where
  count : Int
  sides : Int
  kept : Option (RollEnd × Int)
  deriving DecidableEq

/-- A text is no dice pool for one of these reasons. -/
inductive PoolTextFault where
  | noDelimiter
  | count (fault : NumeralFault)
  | sides (fault : NumeralFault)
  | kept (fault : NumeralFault)
  deriving DecidableEq

def PoolTextFault.message : PoolTextFault → String
  | .noDelimiter => "cannot parse string as dice without 'd' delimiter"
  | .count fault => "invalid dice count: " ++ fault.message
  | .sides fault => "invalid dice sides: " ++ fault.message
  | .kept fault => "invalid keep count: " ++ fault.message

namespace DicePool

def text (pool : DicePool) : String :=
  let dice := toString pool.count ++ "d" ++ toString pool.sides
  match pool.kept with
  | none => dice
  | some (rollEnd, number) => dice ++ rollEnd.letter.toString ++ toString number

/-- This function reads the number of dice in front of the delimiter. -/
def readCount : List Char → Except PoolTextFault Int
  | [] => .ok 1
  | digits => (Numeral.read digits).mapError .count

/-- This function reads the text after the delimiter: the kept dice first, then the sides. -/
def readSides (text : List Char) : Except PoolTextFault (Int × Option (RollEnd × Int)) := do
  let isSide := fun character => (RollEnd.ofLetter? character).isNone
  let kept ← match text.dropWhile isSide with
    | [] => pure none
    | letter :: digits => do
        let number ← (Numeral.read digits).mapError .kept
        pure ((RollEnd.ofLetter? letter).map fun rollEnd => (rollEnd, number))
  let sides ← (Numeral.read (text.takeWhile isSide)).mapError .sides
  return (sides, kept)

/-- The first letter d of a text delimits the count. -/
def read (text : List Char) : Except PoolTextFault DicePool :=
  match text.dropWhile (· != 'd') with
  | [] => .error .noDelimiter
  | _ :: rest => do
      let count ← readCount (text.takeWhile (· != 'd'))
      let (sides, kept) ← readSides rest
      return ⟨count, sides, kept⟩

end DicePool

end DiceOdds
