/-!
Symbols are named outcome categories such as `'heads`. A symbol is written with one of two marks,
and the mark is kept for display only: identity and order look at the name alone.
-/

namespace DiceOdds

/-- A symbol is written with a tick or with a colon. -/
inductive Mark where
  | tick
  | colon
  deriving DecidableEq

def Mark.text : Mark → String
  | .tick => "'"
  | .colon => ":"

structure Symbol where
  name : String
  mark : Mark

namespace Symbol

/-- Names are ordered by code points. -/
instance : Ord Symbol where
  compare first second := compare first.name second.name

/-- Two symbols are the same when their names are, whatever their marks. -/
instance : BEq Symbol where
  beq first second := first.name == second.name

def text (symbol : Symbol) : String :=
  symbol.mark.text ++ symbol.name

end Symbol

/-! A map from symbols is a list of entries in increasing order of names. -/

namespace Symbol

/-- This function stores an entry; a key that is present stays, and only its value changes. -/
def put {A : Type} (symbol : Symbol) (value : A) : List (Symbol × A) → List (Symbol × A)
  | [] => [(symbol, value)]
  | (key, old) :: rest =>
      match compare symbol key with
      | .lt => (symbol, value) :: (key, old) :: rest
      | .eq => (key, value) :: rest
      | .gt => (key, old) :: put symbol value rest

/-- This function drops the entry of a symbol. -/
def drop {A : Type} (symbol : Symbol) (entries : List (Symbol × A)) : List (Symbol × A) :=
  entries.filter fun entry => !(entry.1 == symbol)

end Symbol

end DiceOdds
