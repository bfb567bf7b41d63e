import DiceOdds.Proofs.Grammar
import DiceOdds.Proofs.Span

/-
This file shows that a text is refused at its first bad lexeme. A reader in any state can still be
led to the end of a statement, so the tokens that it has taken begin a statement, and a token that
it does not take cannot follow them in any.
-/

namespace DiceOdds

namespace Reader

/-- A reader completes when some tokens lead it to the end of a condition. -/
def Completes (reader : Reader) : Prop :=
  ∃ more condition, reader.read more = .ok condition

theorem Completes.of_step? {reader next : Reader} (completes : next.Completes) (token : Token)
    (taken : reader.step? token = some next) : reader.Completes := by
  obtain ⟨more, condition, read⟩ := completes
  refine ⟨token :: more, condition, ?_⟩
  rw [Reader.read, taken]
  exact read

/-- After an atom one parenthesis closes each open group. -/
theorem completes_afterAtom (enclosing : List OpenChain) (chain : OpenChain) (atom : Atom) :
    Completes ⟨enclosing, chain, .afterAtom atom⟩ := by
  induction enclosing generalizing chain atom with
  | nil => exact ⟨[], _, rfl⟩
  | cons outer enclosing known =>
      exact (known outer (.group (chain.close atom))).of_step? .rightParen rfl

theorem completes_ofComponents (enclosing : List OpenChain) (chain : OpenChain)
    (components : List (Symbol × Literal)) (last : Symbol × Literal) :
    Completes ⟨enclosing, chain, .ofComponents components last⟩ := by
  cases components with
  | nil => exact (completes_afterAtom enclosing chain _).of_step? .rightBrace rfl
  | cons first others =>
      exact (completes_afterAtom enclosing chain _).of_step? .rightBrace rfl

/-- Every state of a reader can be completed. -/
theorem completes (reader : Reader) : reader.Completes := by
  obtain ⟨enclosing, chain, place⟩ := reader
  have component (components : List (Symbol × Literal)) (dimension : Symbol) :
      Completes ⟨enclosing, chain, .component components dimension⟩ :=
    (completes_ofComponents enclosing chain components _).of_step? (.integer 0) rfl
  have afterDimension (components : List (Symbol × Literal)) (dimension : Symbol) :
      Completes ⟨enclosing, chain, .afterDimension components dimension⟩ :=
    (component components dimension).of_step? .colon rfl
  cases place with
  | operand => exact (completes_afterAtom enclosing chain _).of_step? (.integer 0) rfl
  | afterAtom atom => exact completes_afterAtom enclosing chain atom
  | dimension components =>
      exact (afterDimension components ⟨"a", .tick⟩).of_step? (.symbol ⟨"a", .tick⟩) rfl
  | afterDimension components dimension => exact afterDimension components dimension
  | component components dimension => exact component components dimension
  | afterComponent first others =>
      exact (completes_afterAtom enclosing chain _).of_step? .rightBrace rfl

/-- The tokens that a reader takes are those that begin a chain. -/
theorem exists_run?_iff {tokens : List Token} :
    (∃ reader, start.run? tokens = some reader) ↔ ∃ more, IsChain (tokens ++ more) := by
  constructor
  · rintro ⟨reader, ran⟩
    obtain ⟨more, condition, read⟩ := reader.completes
    obtain ⟨last, later, finished⟩ := read_eq_ok_iff.1 read
    refine ⟨more, exists_read_iff.1 ⟨condition, read_eq_ok_iff.2 ⟨last, ?_, finished⟩⟩⟩
    rw [run?_append, ran]
    exact later
  · rintro ⟨more, chain⟩
    obtain ⟨condition, read⟩ := exists_read_iff.2 chain
    obtain ⟨last, ran, -⟩ := read_eq_ok_iff.1 read
    rw [run?_append] at ran
    obtain ⟨reader, before, -⟩ := Option.bind_eq_some_iff.1 ran
    exact ⟨reader, before⟩

/-- A reader stops behind some tokens at the end of the text or at a token that it does not take. -/
structure Stops (reader : Reader) (before : List Token) (last : Reader) (obstacle : Obstacle) :
    Prop where
  ran : reader.run? before = some last
  expected : obstacle.expected = last.expected
  atEnd : obstacle.rest = [] → last.finish? = none
  atToken : ∀ bad ∈ obstacle.rest.head?, last.step? bad = none

theorem exists_stops {reader : Reader} {tokens : List Token} {obstacle : Obstacle}
    (refused : reader.read tokens = .error obstacle) :
    ∃ before last, tokens = before ++ obstacle.rest ∧ reader.Stops before last obstacle := by
  induction tokens generalizing reader with
  | nil =>
      rw [Reader.read] at refused
      split at refused
      · cases refused
      · next unfinished =>
          cases refused
          exact ⟨[], reader, rfl, rfl, rfl, fun _ => unfinished, by simp⟩
  | cons token tokens known =>
      rw [Reader.read] at refused
      split at refused
      · next next taken =>
          obtain ⟨before, last, rfl, stops⟩ := known refused
          refine ⟨token :: before, last, rfl, ?_, stops.expected, stops.atEnd, stops.atToken⟩
          rw [run?_cons, taken]
          exact stops.ran
      · next blocked =>
          cases refused
          exact ⟨[], reader, rfl, rfl, rfl, by simp, by simpa using blocked⟩

theorem step?_invalid (reader : Reader) : reader.step? .invalid = none := by
  obtain ⟨enclosing, chain, place⟩ := reader
  cases place <;> rfl

theorem not_mem_invalid {reader last : Reader} {tokens : List Token}
    (ran : reader.run? tokens = some last) : Token.invalid ∉ tokens := by
  induction tokens generalizing reader with
  | nil => simp
  | cons token tokens known =>
      rw [run?_cons] at ran
      obtain ⟨next, taken, later⟩ := Option.bind_eq_some_iff.1 ran
      intro member
      rcases List.mem_cons.1 member with rfl | inside
      · rw [step?_invalid] at taken
        cases taken
      · exact known later inside

section Expected

variable {reader : Reader}

/-- A reader takes every token of a kind that it expects. -/
theorem exists_step?_of_expected {token : Token} (listed : .token token.kind ∈ reader.expected) :
    ∃ next, reader.step? token = some next := by
  obtain ⟨enclosing, chain, place⟩ := reader
  cases place with
  | afterAtom atom =>
      cases enclosing <;> cases token <;> simp [expected, Token.kind] at listed
      exact ⟨_, rfl⟩
  | _ =>
      cases token <;> simp [expected, Token.kind] at listed
      all_goals exact ⟨_, rfl⟩

theorem exists_step?_operator (listed : .anyOperator ∈ reader.expected) (operator : Operator) :
    ∃ next, reader.step? (.operator operator) = some next := by
  obtain ⟨enclosing, chain, place⟩ := reader
  cases place with
  | afterAtom atom => exact ⟨_, rfl⟩
  | _ => simp [expected] at listed

theorem exists_finish? (listed : .endOfInput ∈ reader.expected) :
    ∃ condition, reader.finish? = some condition := by
  obtain ⟨enclosing, chain, place⟩ := reader
  cases place with
  | afterAtom atom =>
      cases enclosing with
      | nil => exact ⟨_, rfl⟩
      | cons outer enclosing => simp [expected] at listed
  | _ => simp [expected] at listed

end Expected

end Reader

/-- These tokens begin a statement when some tokens after them complete it. -/
def BeginsStatement (tokens : List Token) : Prop :=
  ∃ more defined, IsStatement defined (tokens ++ more)

/-- An alternative follows some tokens when each of its tokens can come next, or the end can. -/
def Expectation.Follows (alternative : Expectation) (tokens : List Token) : Prop :=
  match alternative with
  | .token kind => ∀ token : Token, token.kind = kind → BeginsStatement (tokens ++ [token])
  | .anyOperator => ∀ operator, BeginsStatement (tokens ++ [.operator operator])
  | .endOfInput => ∃ defined, IsStatement defined tokens

namespace Statement

/-- Tokens that make the condition a chain complete the statement. -/
theorem isStatement_append {tokens more : List Token}
    (chain : IsChain ((splitHead tokens).2 ++ more)) :
    IsStatement (splitHead tokens).1 (tokens ++ more) := by
  unfold splitHead at *
  split at *
  · exact .definition _ chain
  · exact .expression chain

/-- Tokens begin a statement when a reader takes those of the condition. -/
theorem beginsStatement_iff {tokens : List Token} :
    BeginsStatement tokens ↔ ∃ reader, Reader.start.run? (splitHead tokens).2 = some reader := by
  constructor
  · rintro ⟨more, defined, derived⟩
    unfold splitHead
    split
    · exact Reader.exists_run?_iff.2 ⟨more, (isStatement_iff.1 derived).2⟩
    · next noHead =>
        generalize whole : tokens ++ more = all at derived
        cases derived with
        | expression chain =>
            subst whole
            exact Reader.exists_run?_iff.2 ⟨more, chain⟩
        | definition name chain =>
            -- At most the name can be there already.
            rcases tokens with _ | ⟨first, _ | ⟨second, rest⟩⟩
            · exact ⟨_, rfl⟩
            · obtain ⟨rfl, -⟩ := List.cons.inj whole
              exact ⟨_, rfl⟩
            · obtain ⟨rfl, same⟩ := List.cons.inj whole
              obtain ⟨rfl, -⟩ := List.cons.inj same
              exact (noHead name rest rfl).elim
  · intro taken
    obtain ⟨more, chain⟩ := Reader.exists_run?_iff.1 taken
    exact ⟨more, _, isStatement_append chain⟩

section Following

variable {tokens : List Token} {reader : Reader}

theorem begins_of_step? (ran : Reader.start.run? (splitHead tokens).2 = some reader) {token : Token}
    {next : Reader} (taken : reader.step? token = some next) :
    BeginsStatement (tokens ++ [token]) := by
  have later : Reader.start.run? ((splitHead tokens).2 ++ [token]) = some next := by
    rw [Reader.run?_append, ran]
    exact (Reader.run?_cons reader token []).trans (by rw [taken]; rfl)
  obtain ⟨more, chain⟩ := Reader.exists_run?_iff.1 ⟨next, later⟩
  refine ⟨more, (splitHead tokens).1, ?_⟩
  rw [List.append_assoc] at chain ⊢
  exact isStatement_append chain

/-- Whatever the reader expects can come next. -/
theorem follows_of_expected (ran : Reader.start.run? (splitHead tokens).2 = some reader)
    {alternative : Expectation} (listed : alternative ∈ reader.expected) :
    alternative.Follows tokens := by
  cases alternative with
  | token kind =>
      rintro token rfl
      obtain ⟨next, taken⟩ := Reader.exists_step?_of_expected listed
      exact begins_of_step? ran taken
  | anyOperator =>
      intro operator
      obtain ⟨next, taken⟩ := Reader.exists_step?_operator listed operator
      exact begins_of_step? ran taken
  | endOfInput =>
      obtain ⟨condition, finished⟩ := Reader.exists_finish? listed
      have read := Reader.read_eq_ok_iff.2 ⟨reader, ran, finished⟩
      exact ⟨_, isStatement_iff.2 ⟨rfl, Reader.exists_read_iff.1 ⟨condition, read⟩⟩⟩

end Following

/-- A beginning of tokens without the head of a definition has none either. -/
theorem splitHead_of_beginning {part whole : List Token} (isPrefix : part <+: whole)
    (noHead : ∀ name rest, whole ≠ .name name :: .define :: rest) :
    splitHead part = (none, part) := by
  apply splitHead_of_ne
  rintro name rest rfl
  obtain ⟨more, same⟩ := isPrefix
  exact noHead name (rest ++ more) same.symm

/-- Reading a statement stops where the reader of its condition does. -/
theorem exists_stops {tokens : List Token} {obstacle : Obstacle}
    (refused : Statement.read tokens = .error obstacle) :
    ∃ before last, tokens = before ++ obstacle.rest ∧
      Reader.start.Stops (splitHead before).2 last obstacle ∧
      ∀ bad ∈ obstacle.rest.head?,
        (splitHead (before ++ [bad])).2 = (splitHead before).2 ++ [bad] := by
  have read : Reader.start.read (splitHead tokens).2 = .error obstacle := by
    rw [read_eq] at refused
    cases read : Reader.start.read (splitHead tokens).2 with
    | error other =>
        rw [read] at refused
        cases refused
        rfl
    | ok condition =>
        rw [read] at refused
        cases refused
  unfold splitHead at read
  split at read
  · next name rest =>
      obtain ⟨before, last, rfl, stops⟩ := Reader.exists_stops read
      exact ⟨.name name :: .define :: before, last, rfl, stops, fun _ _ => rfl⟩
  · next noHead =>
      obtain ⟨before, last, rfl, stops⟩ := Reader.exists_stops read
      have ofBefore := splitHead_of_beginning (List.prefix_append before obstacle.rest) noHead
      refine ⟨before, last, rfl, by rwa [ofBefore], fun bad isNext => ?_⟩
      have nextPrefix : before ++ [bad] <+: before ++ obstacle.rest := by
        obtain ⟨after, split⟩ := List.head?_eq_some_iff.1 isNext
        rw [split]
        simp
      rw [splitHead_of_beginning nextPrefix noHead, ofBefore]

end Statement

/-- The first bad lexeme of a text does not continue the statement that those before it begin. -/
structure FirstBad (text : List Char) (before : List Lexeme) (bad : Lexeme) : Prop where
  split : ∃ after, lexemes text = before ++ bad :: after
  begins : BeginsStatement (before.map Lexeme.token)
  ends : ¬BeginsStatement (before.map Lexeme.token ++ [bad.token])

/-- An error shows a lexeme when it has its span and its text, and the lexeme covers this span. -/
structure SourceError.Shows (error : SourceError) (text : List Char) (lexeme : Lexeme) : Prop where
  starts : error.start = lexeme.start
  stops : error.stop = lexeme.stop
  quotes : error.text = lexeme.text
  covers : lexeme.Covers text

namespace SourceError

/-- The lexemes that are left over after a reading are the last ones. -/
theorem drop_lexemes {front back : List Lexeme} {rest : List Token}
    (same : back.map Lexeme.token = rest) :
    (front ++ back).drop ((front ++ back).length - rest.length) = back := by
  subst same
  simp

theorem ofObstacle_nil {text : List Char} {found : List Lexeme} {obstacle : Obstacle}
    (atEnd : obstacle.rest = []) : ofObstacle text found obstacle =
      ⟨.unexpectedEnd obstacle.expected, byteCount text, byteCount text, []⟩ := by
  rw [ofObstacle, atEnd, List.length_nil, Nat.sub_zero, List.drop_length]

/-- An error in front of left over lexemes is about the first of them. -/
theorem exists_ofObstacle_cons (text : List Char) (front : List Lexeme) {bad : Lexeme}
    {after : List Lexeme} {obstacle : Obstacle}
    (same : (bad :: after).map Lexeme.token = obstacle.rest) :
    ∃ problem, ofObstacle text (front ++ bad :: after) obstacle =
        ⟨problem, bad.start, bad.stop, bad.text⟩ ∧
      (bad.token = .invalid ∧ problem = .invalidToken ∨
        bad.token ≠ .invalid ∧ problem = .unexpectedToken bad.token obstacle.expected) := by
  rw [ofObstacle, drop_lexemes same]
  refine ⟨_, rfl, ?_⟩
  cases bad.token <;> simp

end SourceError

namespace Statement

theorem ofSource_eq_error {text : List Char} {error : SourceError}
    (refused : Statement.ofSource text = .error error) :
    ∃ obstacle, Statement.read (tokensOf text) = .error obstacle ∧
      SourceError.ofObstacle text (lexemes text) obstacle = error :=
  Except.mapError_eq_error refused

/-- A token that stops a reading cannot come next in any statement. -/
theorem not_begins_of_stops {tokens : List Token} {last : Reader} {obstacle : Obstacle}
    {bad : Token} (stops : Reader.start.Stops (splitHead tokens).2 last obstacle)
    (isNext : bad ∈ obstacle.rest.head?)
    (continued : (splitHead (tokens ++ [bad])).2 = (splitHead tokens).2 ++ [bad]) :
    ¬BeginsStatement (tokens ++ [bad]) := by
  intro begins
  obtain ⟨reader, ran⟩ := beginsStatement_iff.1 begins
  rw [continued, Reader.run?_append, stops.ran, Option.bind_some, Reader.run?_cons,
    stops.atToken bad isNext] at ran
  cases ran

theorem not_mem_invalid {tokens : List Token} {reader : Reader}
    (ran : Reader.start.run? (splitHead tokens).2 = some reader) : Token.invalid ∉ tokens := by
  have absent := Reader.not_mem_invalid ran
  unfold splitHead at absent
  split at absent
  · simpa using absent
  · exact absent

/-- A text is refused at its end when its tokens begin a statement that they do not complete, and
otherwise at its first bad lexeme, whose span and text the error has. Whatever the error expects
there can follow. -/
theorem ofSource_first_bad {text : List Char} {error : SourceError}
    (refused : Statement.ofSource text = .error error) :
    match error.problem with
    | .unexpectedEnd expected =>
        Token.invalid ∉ tokensOf text ∧ BeginsStatement (tokensOf text) ∧
          (¬∃ defined, IsStatement defined (tokensOf text)) ∧
          error.start = byteCount text ∧ error.stop = byteCount text ∧ error.text = [] ∧
          ∀ alternative ∈ expected, alternative.Follows (tokensOf text)
    | .unexpectedToken found expected =>
        ∃ before bad, FirstBad text before bad ∧ error.Shows text bad ∧ bad.token ≠ .invalid ∧
          found = bad.token ∧
          ∀ alternative ∈ expected, alternative.Follows (before.map Lexeme.token)
    | .invalidToken =>
        ∃ before bad, FirstBad text before bad ∧ error.Shows text bad ∧ bad.token = .invalid := by
  obtain ⟨obstacle, read, rfl⟩ := ofSource_eq_error refused
  obtain ⟨tokens, last, split, stops, continued⟩ := exists_stops read
  obtain ⟨front, back, whole, rfl, ofBack⟩ := List.map_eq_append_iff.1 split
  have begins : BeginsStatement (front.map Lexeme.token) :=
    beginsStatement_iff.2 ⟨last, stops.ran⟩
  have follows : ∀ alternative ∈ obstacle.expected,
      alternative.Follows (front.map Lexeme.token) := by
    intro alternative listed
    rw [stops.expected] at listed
    exact follows_of_expected stops.ran listed
  rw [whole]
  cases back with
  | nil =>
      have atEnd : tokensOf text = front.map Lexeme.token := by
        rw [tokensOf, whole, List.append_nil]
      rw [SourceError.ofObstacle_nil ofBack.symm, atEnd]
      refine ⟨not_mem_invalid stops.ran, begins, ?_, rfl, rfl, rfl, follows⟩
      rintro ⟨defined, derived⟩
      obtain ⟨statement, accepted, -⟩ := exists_read_iff.2 derived
      rw [atEnd, accepted] at read
      cases read
  | cons bad after =>
      have isNext : bad.token ∈ obstacle.rest.head? := by
        rw [← ofBack]
        rfl
      have firstBad : FirstBad text front bad :=
        ⟨⟨after, whole⟩, begins, not_begins_of_stops stops isNext (continued _ isNext)⟩
      have shows (problem : SourceProblem) :
          SourceError.Shows ⟨problem, bad.start, bad.stop, bad.text⟩ text bad := by
        refine ⟨rfl, rfl, rfl, Lexeme.lexemes_cover text bad ?_⟩
        rw [whole]
        simp
      obtain ⟨problem, made, ⟨invalid, rfl⟩ | ⟨valid, rfl⟩⟩ :=
        SourceError.exists_ofObstacle_cons text front ofBack
      · rw [made]
        exact ⟨front, bad, firstBad, shows _, invalid⟩
      · rw [made]
        exact ⟨front, bad, firstBad, shows _, valid, rfl, follows⟩

/-- A number behind another one is the first bad lexeme of a group that a parenthesis can end. -/
theorem ofSource_first_bad_group :
    let text := ['(', '1', ' ', '2']
    let error : SourceError := ⟨.unexpectedToken (.integer 2) [.token .rightParen], 3, 4, ['2']⟩
    Statement.ofSource text = .error error ∧
      ∃ before bad, FirstBad text before bad ∧ error.Shows text bad := by
  intro text error
  have refused : Statement.ofSource text = .error error := by
    simp only [text, error]
    cbv
  obtain ⟨before, bad, firstBad, shows, -⟩ := ofSource_first_bad refused
  exact ⟨refused, before, bad, firstBad, shows⟩

end Statement

end DiceOdds
