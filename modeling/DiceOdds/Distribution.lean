import DiceOdds.Fault

/-!
Finite distributions with exact probabilities. A distribution lists its outcomes in increasing
order, each once, and equal outcomes of independent draws are merged by adding their probabilities.
-/

namespace DiceOdds

/-- An event is an outcome together with its probability. -/
structure Event (A : Type) where
  value : A
  probability : Rat

namespace Event

variable {A : Type} [Ord A]

/-- This relation compares events by their outcomes. -/
def notAfter (first second : Event A) : Bool :=
  (compare first.value second.value).isLE

/-- This function puts an event in front of sorted ones; an equal outcome lends its probability. -/
def absorb (event : Event A) : List (Event A) → List (Event A)
  | [] => [event]
  | next :: rest =>
      match compare event.value next.value with
      | .eq => ⟨event.value, event.probability + next.probability⟩ :: rest
      | _ => event :: next :: rest

/-- This function looks a value up in the middle of the events and goes on in one half of them. -/
def search? (value : A) (events : List (Event A)) : Option (Event A) :=
  match _ : events.drop (events.length / 2) with
  | [] => none
  | middle :: later =>
      match compare middle.value value with
      | .eq => some middle
      | .lt => search? value later
      | .gt => search? value (events.take (events.length / 2))
  termination_by events.length
  decreasing_by
    all_goals
      have length := congrArg List.length ‹_ = middle :: later›
      simp only [List.length_drop, List.length_cons, List.length_take] at length ⊢
      omega

end Event

structure Distribution (A : Type) where
  events : List (Event A)

namespace Distribution

variable {A B C : Type}

/-- A distribution is ascending when its outcomes strictly increase. -/
def Ascending [Ord A] (distribution : Distribution A) : Prop :=
  distribution.events.Pairwise fun first second => compare first.value second.value = .lt

/-- This function sorts events and merges equal outcomes; the earliest of these is kept. -/
def ofEvents [Ord A] (events : List (Event A)) : Distribution A :=
  ⟨(events.mergeSort Event.notAfter).foldr Event.absorb []⟩

/-- One outcome always occurs. -/
def certain (value : A) : Distribution A :=
  ⟨[⟨value, 1⟩]⟩

/-- This is the distribution of a fair die numbered from one. -/
def die? (sides : Int) : Except Fault (Distribution Int) :=
  if sides < 1 then .error (.outsideDomain .dieSides sides)
  else .ok ⟨(List.range sides.toNat).map fun index => ⟨Int.ofNat index + 1, 1 / (sides : Rat)⟩⟩

def values (distribution : Distribution A) : List A :=
  distribution.events.map Event.value

def size (distribution : Distribution A) : Nat :=
  distribution.events.length

/-- This is the probability of the event that the look-up finds for a value; without one it is zero. -/
def probability [Ord A] (distribution : Distribution A) (value : A) : Rat :=
  ((Event.search? value distribution.events).map Event.probability).getD 0

def total (distribution : Distribution A) : Rat :=
  distribution.events.foldr (fun event sum => event.probability + sum) 0

/-- This is the largest probability of a single outcome. -/
def greatest (distribution : Distribution A) : Rat :=
  match distribution.events with
  | [] => 0
  | first :: rest =>
      rest.foldl (fun found event => if found < event.probability then event.probability else found)
        first.probability

/-- Every outcome is replaced by its image. -/
def map [Ord B] (distribution : Distribution A) (image : A → B) : Distribution B :=
  ofEvents (distribution.events.map fun event => ⟨image event.value, event.probability⟩)

/-- The least outcome without an image decides the fault. -/
def tryMap [Ord B] {E : Type} (distribution : Distribution A) (image : A → Except E B) :
    Except E (Distribution B) := do
  let events ← distribution.events.mapM fun event => do
    return ⟨← image event.value, event.probability⟩
  return ofEvents events

/-- The pairs of two lists of events follow the left event first. -/
def pairs (left : Distribution A) (right : Distribution B) : List (Event (A × B)) :=
  left.events.flatMap fun first =>
    right.events.map fun second =>
      ⟨(first.value, second.value), first.probability * second.probability⟩

/-- Two independent outcomes are drawn and joined. -/
def join [Ord C] (left : Distribution A) (right : Distribution B) (image : A → B → C) :
    Distribution C :=
  ofEvents ((left.pairs right).map fun event =>
    ⟨image event.value.1 event.value.2, event.probability⟩)

/-- The least pair of outcomes without an image decides the fault. -/
def tryJoin [Ord C] {E : Type} (left : Distribution A) (right : Distribution B)
    (image : A → B → Except E C) : Except E (Distribution C) := do
  let events ← (left.pairs right).mapM fun event => do
    return ⟨← image event.value.1 event.value.2, event.probability⟩
  return ofEvents events

/-- A list of distributions is joined from the left. -/
def joinAll [Ord A] (distributions : List (Distribution A)) (image : A → A → A) :
    Except Fault (Distribution A) :=
  match distributions with
  | [] => .error (.nothingToFold .outcomes)
  | first :: rest => .ok (rest.foldl (fun drawn next => drawn.join next image) first)

end Distribution

end DiceOdds
