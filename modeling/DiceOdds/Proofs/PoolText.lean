import DiceOdds.Dice.Pool
import DiceOdds.Proofs.Numeral
import Mathlib.Data.List.TakeWhile

/-
This file reads dice pools from their texts. A text is cut at its first delimiter and at the first
letter of an end behind it, the parts are read in turn, and the first bad one decides about the fault.
-/

namespace DiceOdds

namespace RollEnd

theorem ofLetter?_of_isDigit {character : Char} (digit : character.isDigit = true) :
    ofLetter? character = none := by
  unfold ofLetter?
  split
  · cases digit
  · cases digit
  · rfl

theorem ofLetter?_letter (rollEnd : RollEnd) : ofLetter? rollEnd.letter = some rollEnd := by
  cases rollEnd <;> rfl

theorem eq_letter_of_ofLetter? {character : Char} {rollEnd : RollEnd}
    (found : ofLetter? character = some rollEnd) : character = rollEnd.letter := by
  unfold ofLetter? at found
  split at found <;> cases found <;> rfl

end RollEnd

/-- These are the parts of the text of a pool: the count in front of the delimiter, the sides behind it
and the number of kept dice behind the letter of their end. -/
structure PoolParts where
  count : List Char
  sides : List Char
  kept : Option (RollEnd × List Char)

namespace PoolParts

def keptText (parts : PoolParts) : List Char :=
  match parts.kept with
  | none => []
  | some (rollEnd, digits) => rollEnd.letter :: digits

def text (parts : PoolParts) : List Char :=
  parts.count ++ 'd' :: (parts.sides ++ parts.keptText)

/-- These parts are cut at the first delimiter and at the first letter of an end behind it. -/
structure Cut (parts : PoolParts) : Prop where
  count : 'd' ∉ parts.count
  sides : ∀ character ∈ parts.sides, RollEnd.ofLetter? character = none

/-- The numerals of a pool are read in this order, each with its own fault. A count may be missing. -/
def numerals (parts : PoolParts) : List ((NumeralFault → PoolTextFault) × List Char) :=
  (if parts.count = [] then [] else [(.count, parts.count)]) ++
    (parts.kept.toList.map fun kept => (.kept, kept.2)) ++ [(.sides, parts.sides)]

/-- A numeral of a pool fails when it is refused. -/
def Refuses (numeral : (NumeralFault → PoolTextFault) × List Char) (fault : PoolTextFault) : Prop :=
  ∃ reason, Numeral.read numeral.2 = .error reason ∧ numeral.1 reason = fault

/-- The parts denote a pool when their numerals do, and a count that is left out is one. -/
structure Denotes (parts : PoolParts) (pool : DicePool) : Prop where
  count : parts.count = [] ∧ pool.count = 1 ∨ Numeral.Accepts parts.count pool.count
  sides : Numeral.Accepts parts.sides pool.sides
  kept : Option.Rel (fun written kept => written.1 = kept.1 ∧ Numeral.Accepts written.2 kept.2)
    parts.kept pool.kept

/-- Plain parts have digits only. -/
structure Plain (parts : PoolParts) : Prop where
  count : ∀ digit ∈ parts.count, digit.isDigit = true
  sides : IsNumeral parts.sides
  kept : ∀ kept ∈ parts.kept, IsNumeral kept.2

end PoolParts

/-- Numerals are free of the delimiter and of the letters of ends. -/
theorem Numeral.Denotes.character {text : List Char} {number : Int}
    (denotes : Numeral.Denotes text number) :
    ∀ character ∈ text, character ≠ 'd' ∧ RollEnd.ofLetter? character = none := by
  have digit {digits : List Char} (numeral : IsNumeral digits) :
      ∀ character ∈ digits, character ≠ 'd' ∧ RollEnd.ofLetter? character = none := by
    intro character member
    have decimal := numeral.decimal character member
    refine ⟨?_, RollEnd.ofLetter?_of_isDigit decimal⟩
    rintro rfl
    cases decimal
  cases denotes with
  | plain numeral => exact digit numeral
  | plus numeral => exact List.forall_mem_cons.2 ⟨⟨by decide, rfl⟩, digit numeral⟩
  | minus numeral => exact List.forall_mem_cons.2 ⟨⟨by decide, rfl⟩, digit numeral⟩

/-- Parts that denote a pool are cut where they should be. -/
theorem PoolParts.Denotes.cut {parts : PoolParts} {pool : DicePool} (denotes : parts.Denotes pool) :
    parts.Cut := by
  refine ⟨?_, fun character member => (denotes.sides.1.character character member).2⟩
  rcases denotes.count with ⟨missing, -⟩ | ⟨written, -⟩
  · simp [missing]
  · exact fun member => (written.character 'd' member).1 rfl

namespace DicePool

section

variable {parts : PoolParts}

/-- The sides end at the letter of an end. -/
theorem split_sides (cut : parts.Cut) :
    (parts.sides ++ parts.keptText).takeWhile (fun character =>
        (RollEnd.ofLetter? character).isNone) = parts.sides ∧
      (parts.sides ++ parts.keptText).dropWhile (fun character =>
        (RollEnd.ofLetter? character).isNone) = parts.keptText := by
  refine takeWhile_split (fun character member => ?_) fun letter atHead => ?_
  · rw [cut.sides character member]
    rfl
  · unfold PoolParts.keptText at atHead
    split at atHead
    · cases atHead
    · next rollEnd digits _ =>
        cases atHead
        rw [rollEnd.ofLetter?_letter]
        rfl

theorem split_count (cut : parts.Cut) :
    parts.text.takeWhile (· != 'd') = parts.count ∧
      parts.text.dropWhile (· != 'd') = 'd' :: (parts.sides ++ parts.keptText) := by
  refine takeWhile_split (fun character member => ?_) (by simp)
  rw [bne_iff_ne]
  rintro rfl
  exact cut.count member

/-- The kept dice are read together with their end. -/
def readKept : Option (RollEnd × List Char) → Except PoolTextFault (Option (RollEnd × Int))
  | none => .ok none
  | some (rollEnd, digits) => do
      let number ← (Numeral.read digits).mapError .kept
      return some (rollEnd, number)

/-- A text that is cut into its parts is read part by part. -/
theorem read_parts (cut : parts.Cut) : DicePool.read parts.text = do
    let count ← readCount parts.count
    let kept ← readKept parts.kept
    let sides ← (Numeral.read parts.sides).mapError .sides
    return ⟨count, sides, kept⟩ := by
  obtain ⟨ofCount, rest⟩ := split_count cut
  obtain ⟨ofSides, ofKept⟩ := split_sides cut
  rw [DicePool.read, rest]
  dsimp only
  rw [ofCount, readSides]
  dsimp only
  rw [ofSides, ofKept]
  unfold PoolParts.keptText
  obtain ⟨count, sides, _ | ⟨rollEnd, digits⟩⟩ := parts
  · cases readCount count with
    | error fault => rfl
    | ok number => cases (Numeral.read sides).mapError PoolTextFault.sides <;> rfl
  · dsimp only
    rw [rollEnd.ofLetter?_letter]
    cases readCount count with
    | error fault => rfl
    | ok number =>
        simp only [readKept]
        cases (Numeral.read digits).mapError PoolTextFault.kept with
        | error fault => rfl
        | ok kept => cases (Numeral.read sides).mapError PoolTextFault.sides <;> rfl

theorem readCount_eq_ok_iff {digits : List Char} {count : Int} :
    readCount digits = .ok count ↔ digits = [] ∧ count = 1 ∨ Numeral.Accepts digits count := by
  rw [← Numeral.read_eq_ok_iff]
  cases digits with
  | nil => simp [readCount, Numeral.read, eq_comm]
  | cons first rest =>
      change (Numeral.read (first :: rest)).mapError PoolTextFault.count = .ok count ↔ _
      cases Numeral.read (first :: rest) <;> simp [Except.mapError]

theorem readKept_eq_ok_iff {written : Option (RollEnd × List Char)} {kept : Option (RollEnd × Int)} :
    readKept written = .ok kept ↔ Option.Rel (fun written kept => written.1 = kept.1 ∧
      Numeral.Accepts written.2 kept.2) written kept := by
  rcases written with _ | ⟨rollEnd, digits⟩
  · rcases kept with _ | kept <;> simp [readKept]
  · have read : readKept (some (rollEnd, digits)) = .ok kept ↔
        ∃ number, Numeral.read digits = .ok number ∧ some (rollEnd, number) = kept := by
      rw [readKept]
      cases Numeral.read digits <;> simp [Except.mapError, bind, Except.bind, pure, Except.pure]
    rw [read]
    rcases kept with _ | ⟨also, number⟩
    · simp
    · simp only [Option.some.injEq, Prod.mk.injEq, Option.rel_some_some, ← Numeral.read_eq_ok_iff]
      constructor
      · rintro ⟨_, accepted, rfl, rfl⟩
        exact ⟨rfl, accepted⟩
      · rintro ⟨rfl, accepted⟩
        exact ⟨number, accepted, rfl, rfl⟩

/-- The parts are read as the pool that they denote. -/
theorem read_parts_eq_ok_iff (cut : parts.Cut) {pool : DicePool} :
    DicePool.read parts.text = .ok pool ↔ parts.Denotes pool := by
  rw [read_parts cut]
  constructor
  · intro ran
    obtain ⟨count, counted, ran⟩ := Except.bind_eq_ok ran
    obtain ⟨kept, chosen, ran⟩ := Except.bind_eq_ok ran
    obtain ⟨sides, sided, ran⟩ := Except.bind_eq_ok ran
    cases ran
    exact ⟨readCount_eq_ok_iff.1 counted, Numeral.read_eq_ok_iff.1 (Except.mapError_eq_ok sided),
      readKept_eq_ok_iff.1 chosen⟩
  · intro denotes
    rw [readCount_eq_ok_iff.2 denotes.count, readKept_eq_ok_iff.2 denotes.kept,
      Numeral.read_eq_ok_iff.2 denotes.sides]
    rfl

theorem refuses_iff {name : NumeralFault → PoolTextFault} {digits : List Char}
    {fault : PoolTextFault} :
    PoolParts.Refuses (name, digits) fault ↔ (Numeral.read digits).mapError name = .error fault := by
  rw [PoolParts.Refuses]
  cases Numeral.read digits <;> simp [Except.mapError]

theorem readCount_eq_error_iff {digits : List Char} {fault : PoolTextFault} :
    readCount digits = .error fault ↔
      IsFirst PoolParts.Refuses (if digits = [] then [] else [(.count, digits)]) fault := by
  cases digits with
  | nil => simp [readCount, isFirst_nil]
  | cons first rest =>
      rw [if_neg (List.cons_ne_nil first rest), isFirst_cons, refuses_iff]
      simp [isFirst_nil, readCount]

theorem readKept_eq_error_iff {written : Option (RollEnd × List Char)} {fault : PoolTextFault} :
    readKept written = .error fault ↔
      IsFirst PoolParts.Refuses (written.toList.map fun kept => (.kept, kept.2)) fault := by
  rcases written with _ | ⟨rollEnd, digits⟩
  · simp [readKept, isFirst_nil]
  · rw [Option.toList_some, List.map_singleton, isFirst_cons, refuses_iff, readKept]
    cases (Numeral.read digits).mapError PoolTextFault.kept <;>
      simp [isFirst_nil, bind, Except.bind, pure, Except.pure]

/-- The first numeral that is refused decides about the fault. -/
theorem read_parts_eq_error_iff (cut : parts.Cut) {fault : PoolTextFault} :
    DicePool.read parts.text = .error fault ↔ IsFirst PoolParts.Refuses parts.numerals fault := by
  rw [read_parts cut, PoolParts.numerals]
  rw [List.append_assoc]
  refine Except.bind_isFirst (fun _ => readCount_eq_error_iff) (fun count => ?_) fault
  refine Except.bind_isFirst (fun _ => readKept_eq_error_iff) fun kept other => ?_
  rw [isFirst_cons, refuses_iff]
  cases (Numeral.read parts.sides).mapError PoolTextFault.sides <;>
    simp [isFirst_nil, bind, Except.bind, pure, Except.pure]

end

/-- A text with a delimiter can be cut into parts. -/
theorem exists_cut {text : List Char} (delimited : 'd' ∈ text) :
    ∃ parts : PoolParts, parts.Cut ∧ parts.text = text := by
  obtain ⟨count, rest, rfl, first⟩ := List.eq_append_cons_of_mem delimited
  let isSide := fun character => (RollEnd.ofLetter? character).isNone
  have whole : rest.takeWhile isSide ++ rest.dropWhile isSide = rest :=
    List.takeWhile_append_dropWhile
  have clear : ∀ character ∈ rest.takeWhile isSide, RollEnd.ofLetter? character = none := by
    intro character member
    have side : isSide character = true := List.mem_takeWhile_imp member
    exact Option.isNone_iff_eq_none.1 side
  cases dropped : rest.dropWhile isSide with
  | nil =>
      rw [dropped, List.append_nil] at whole
      refine ⟨⟨count, rest, none⟩, ⟨first, by rwa [whole] at clear⟩, ?_⟩
      simp [PoolParts.text, PoolParts.keptText]
  | cons letter digits =>
      have ended := List.head?_dropWhile_not isSide rest
      rw [dropped] at ended
      obtain ⟨rollEnd, found⟩ : ∃ rollEnd, RollEnd.ofLetter? letter = some rollEnd :=
        Option.isSome_iff_exists.1 (by simpa [isSide] using ended)
      refine ⟨⟨count, rest.takeWhile isSide, some (rollEnd, digits)⟩, ⟨first, clear⟩, ?_⟩
      obtain rfl := RollEnd.eq_letter_of_ofLetter? found
      rw [dropped] at whole
      simp only [PoolParts.text, PoolParts.keptText, whole]

/-- Only a text without a delimiter has this fault. -/
theorem read_eq_noDelimiter_iff {text : List Char} :
    DicePool.read text = .error .noDelimiter ↔ 'd' ∉ text := by
  constructor
  · intro refused delimited
    obtain ⟨parts, cut, rfl⟩ := exists_cut delimited
    obtain ⟨before, numeral, after, split, -, reason, -, named⟩ :=
      (read_parts_eq_error_iff cut).1 refused
    have listed : numeral ∈ parts.numerals := by
      rw [split]
      simp
    simp only [PoolParts.numerals, List.mem_append, List.mem_ite_nil_left, List.mem_map,
      List.mem_singleton] at listed
    rcases listed with (⟨-, rfl⟩ | ⟨kept, -, rfl⟩) | rfl <;> cases named
  · intro missing
    have dropped : text.dropWhile (· != 'd') = [] := by
      rw [List.dropWhile_eq_nil_iff]
      intro character member
      rw [bne_iff_ne]
      rintro rfl
      exact missing member
    rw [DicePool.read, dropped]

/-- A text is read as the pool that its parts denote. -/
theorem read_eq_ok_iff {text : List Char} {pool : DicePool} :
    DicePool.read text = .ok pool ↔ ∃ parts : PoolParts, parts.Denotes pool ∧ parts.text = text := by
  constructor
  · intro ran
    have delimited : 'd' ∈ text := by
      by_contra missing
      rw [read_eq_noDelimiter_iff.2 missing] at ran
      cases ran
    obtain ⟨parts, cut, rfl⟩ := exists_cut delimited
    exact ⟨parts, (read_parts_eq_ok_iff cut).1 ran, rfl⟩
  · rintro ⟨parts, denotes, rfl⟩
    exact (read_parts_eq_ok_iff denotes.cut).2 denotes

/-- The text of a pool can write the numbers of the pool. -/
structure Written (pool : DicePool) : Prop where
  count : DiceOdds.Written pool.count
  sides : DiceOdds.Written pool.sides
  kept : ∀ rollEnd number, pool.kept = some (rollEnd, number) → DiceOdds.Written number

/-- The numbers of a pool are representable. -/
structure InRange (pool : DicePool) : Prop where
  count : Representable pool.count
  sides : Representable pool.sides
  kept : ∀ rollEnd number, pool.kept = some (rollEnd, number) → Representable number

theorem Written.inRange {pool : DicePool} (written : pool.Written) : pool.InRange :=
  ⟨written.count.representable, written.sides.representable,
    fun rollEnd number kept => (written.kept rollEnd number kept).representable⟩

/-- The kept dice of a pool are written with the letter of an end and a numeral. -/
inductive IsKept : List Char → Prop where
  | none : IsKept []
  | some (rollEnd : RollEnd) {digits : List Char} (numeral : IsNumeral digits) :
      IsKept (rollEnd.letter :: digits)

/-- The text of a pool has numerals on both sides of its delimiter; the first one may be missing. -/
inductive IsPool : List Char → Prop where
  | mk {count sides kept : List Char} (ofCount : ∀ digit ∈ count, digit.isDigit = true)
      (ofSides : IsNumeral sides) (ofKept : IsKept kept) : IsPool (count ++ 'd' :: (sides ++ kept))

/-- The text of a pool without signs has plain parts. -/
theorem IsPool.exists_parts {text : List Char} (isPool : IsPool text) :
    ∃ parts : PoolParts, parts.Plain ∧ parts.text = text := by
  cases isPool with
  | @mk count sides kept ofCount ofSides ofKept =>
      cases ofKept with
      | none => exact ⟨⟨count, sides, none⟩, ⟨ofCount, ofSides, by simp⟩, rfl⟩
      | @some rollEnd digits numeral =>
          exact ⟨⟨count, sides, some (rollEnd, digits)⟩, ⟨ofCount, ofSides, by simpa⟩, rfl⟩

section Plain

variable {parts : PoolParts} (plain : parts.Plain)
include plain

/-- Digits are neither a delimiter nor the letter of an end. -/
theorem cut_of_plain : parts.Cut := by
  refine ⟨fun member => ?_, fun character member => ?_⟩
  · cases plain.count 'd' member
  · exact RollEnd.ofLetter?_of_isDigit (plain.sides.decimal character member)

theorem isNumeral_of_plain : ∀ numeral ∈ parts.numerals, IsNumeral numeral.2 := by
  intro numeral listed
  simp only [PoolParts.numerals, List.mem_append, List.mem_ite_nil_left, List.mem_map,
    List.mem_singleton, Option.mem_toList] at listed
  rcases listed with (⟨nonempty, rfl⟩ | ⟨kept, chosen, rfl⟩) | rfl
  · exact ⟨nonempty, plain.count⟩
  · exact plain.kept kept chosen
  · exact plain.sides

/-- A text without signs is refused when one of its numbers is too large. -/
theorem exists_read_eq_error_iff_of_plain : (∃ fault, DicePool.read parts.text = .error fault) ↔
    ∃ numeral ∈ parts.numerals, greatestInteger < Numeral.magnitude numeral.2 := by
  simp only [read_parts_eq_error_iff (cut_of_plain plain), exists_isFirst_iff]
  refine exists_congr fun numeral => and_congr_right fun listed => ?_
  rw [← Numeral.exists_read_eq_error_iff_of_isNumeral (isNumeral_of_plain plain numeral listed)]
  constructor
  · rintro ⟨_, reason, refused, -⟩
    exact ⟨reason, refused⟩
  · rintro ⟨reason, refused⟩
    exact ⟨_, reason, refused, rfl⟩

theorem written_of_plain {pool : DicePool} (denotes : parts.Denotes pool) : pool.Written := by
  have natural {digits : List Char} {number : Int} (numeral : IsNumeral digits)
      (accepts : Numeral.Accepts digits number) : DiceOdds.Written number :=
    Numeral.read_written numeral (Numeral.read_eq_ok_iff.2 accepts)
  refine ⟨?_, natural plain.sides denotes.sides, fun rollEnd number kept => ?_⟩
  · rcases denotes.count with ⟨-, one⟩ | accepts
    · rw [one]
      exact ⟨by decide, by decide⟩
    · exact natural ⟨accepts.1.ne_nil, plain.count⟩ accepts
  · have related := denotes.kept
    rw [kept] at related
    cases written : parts.kept with
    | none =>
        rw [written] at related
        cases related
    | some digits =>
        rw [written] at related
        exact natural (plain.kept digits written) (Option.rel_some_some.1 related).2

end Plain

/-- A pool that is read from its text can be written. -/
theorem read_written {text : List Char} {pool : DicePool} (isPool : IsPool text)
    (ran : DicePool.read text = .ok pool) : pool.Written := by
  obtain ⟨parts, plain, rfl⟩ := isPool.exists_parts
  exact written_of_plain plain ((read_parts_eq_ok_iff (cut_of_plain plain)).1 ran)

/-- This is what the text of a pool shows after the delimiter and the sides. -/
def keptText (pool : DicePool) : List Char :=
  match pool.kept with
  | none => []
  | some (rollEnd, number) => rollEnd.letter :: (toString number).toList

theorem toList_text (pool : DicePool) : pool.text.toList =
    (toString pool.count).toList ++ 'd' :: ((toString pool.sides).toList ++ pool.keptText) := by
  obtain ⟨count, sides, kept⟩ := pool
  cases kept with
  | none => simp [text, keptText]
  | some chosen => simp [text, keptText, Char.toString]

theorem isKept_keptText {pool : DicePool} (written : pool.Written) : IsKept pool.keptText := by
  obtain ⟨count, sides, kept⟩ := pool
  cases kept with
  | none => exact .none
  | some chosen =>
      exact .some chosen.1 (Numeral.isNumeral_toString (written.kept chosen.1 chosen.2 rfl).1)

/-- Reading the text of a pool gives the pool back. -/
theorem read_text {pool : DicePool} (inRange : pool.InRange) :
    DicePool.read pool.text.toList = .ok pool := by
  obtain ⟨count, sides, kept⟩ := pool
  have accepts {number : Int} (representable : Representable number) :
      Numeral.Accepts (toString number).toList number :=
    ⟨Numeral.denotes_toString number, representable⟩
  rw [read_eq_ok_iff, toList_text]
  cases kept with
  | none =>
      refine ⟨⟨_, _, none⟩, ⟨.inr (accepts inRange.count), accepts inRange.sides, .none⟩, ?_⟩
      rfl
  | some chosen =>
      obtain ⟨rollEnd, number⟩ := chosen
      have ofKept := accepts (inRange.kept rollEnd number rfl)
      refine ⟨⟨_, _, some (rollEnd, _)⟩,
        ⟨.inr (accepts inRange.count), accepts inRange.sides, .some ⟨rfl, ofKept⟩⟩, ?_⟩
      rfl

end DicePool

end DiceOdds
