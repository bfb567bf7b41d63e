import DiceOdds.Proofs.Agreement
import DiceOdds.Proofs.Spelling
import Mathlib

/-
This file shows that the reader of statements follows the spelling of trees in both directions. What
it has read so far is spelled by the tokens so far, and every spelling of a standard tree is read as
that tree.
-/

namespace DiceOdds

/-- This is the spelling of an atom whose groups have their precedence. -/
structure SpellsAtom (tokens : List Token) (atom : Atom) : Prop where
  spells : SpellsOperand tokens atom.forget
  standard : atom.forget.Standard

/-- This is the spelling of a whole chain of such atoms. -/
structure SpellsAtoms (tokens : List Token) (value : Atom) (links : List (Operator × Atom)) :
    Prop where
  spells : SpellsSequence tokens value.forget (links.map forgetLink)
  standard : ∀ atom ∈ value :: links.map Prod.snd, atom.forget.Standard

theorem SpellsAtom.last {tokens : List Token} {atom : Atom} (spells : SpellsAtom tokens atom) :
    SpellsAtoms tokens atom [] :=
  ⟨.last spells.spells, by simpa using spells.standard⟩

theorem SpellsAtom.next {tokens more : List Token} {atom second : Atom}
    {links : List (Operator × Atom)} (spells : SpellsAtom tokens atom) (operator : Operator)
    (rest : SpellsAtoms more second links) :
    SpellsAtoms (tokens ++ .operator operator :: more) atom ((operator, second) :: links) :=
  ⟨.next spells.spells rest.spells, List.forall_mem_cons.2 ⟨spells.standard, rest.standard⟩⟩

/-- A chain with its precedence is a standard tree with the same spelling. -/
theorem SpellsAtoms.ofChain {tokens : List Token} {value : Atom} {links : List (Operator × Atom)}
    (spells : SpellsAtoms tokens value links) :
    SpellsTree tokens (Condition.ofChain value links).forget ∧
      (Condition.ofChain value links).forget.Standard := by
  obtain ⟨ordered, head, tail⟩ := Condition.forget_ofChain value links
  refine ⟨?_, ordered, ?_⟩
  · rw [SpellsTree, head, tail]
    exact spells.spells
  · rw [OperatorTree.leaves, head, tail]
    intro operand member
    have atoms : value.forget :: (links.map forgetLink).map Prod.snd =
        (value :: links.map Prod.snd).map Atom.forget := by
      simp [forgetLink]
    rw [atoms] at member
    obtain ⟨atom, inside, rfl⟩ := List.mem_map.1 member
    exact spells.standard atom inside

/-- These tokens spell a chain that is still open, an operator being the last of them. -/
inductive SpellsChain : List Token → OpenChain → Prop where
  | nil : SpellsChain [] []
  | cons {tokens more : List Token} {chain : OpenChain} {atom : Atom}
      (before : SpellsChain tokens chain) (spells : SpellsAtom more atom) (operator : Operator) :
      SpellsChain (tokens ++ (more ++ [.operator operator])) ((atom, operator) :: chain)

/-- Each enclosing chain ends at an open group. -/
inductive SpellsEnclosing : List Token → List OpenChain → Prop where
  | nil : SpellsEnclosing [] []
  | cons {tokens more : List Token} {enclosing : List OpenChain} {chain : OpenChain}
      (before : SpellsEnclosing tokens enclosing) (spells : SpellsChain more chain) :
      SpellsEnclosing (tokens ++ (more ++ [.leftParen])) (chain :: enclosing)

/-- These tokens end in front of the next dimension of a vector. -/
inductive SpellsStart : List Token → List (Symbol × Literal) → Prop where
  | first : SpellsStart [.leftBrace] []
  | next {tokens : List Token} {first : Symbol × Literal} {others : List (Symbol × Literal)}
      (before : SpellsComponents tokens (first :: others)) :
      SpellsStart (.leftBrace :: (tokens ++ [.comma])) (first :: others)

/-- These tokens spell what the place of a reader holds. -/
inductive SpellsPlace : List Token → ReaderPlace → Prop where
  | operand : SpellsPlace [] .operand
  | afterAtom {tokens : List Token} {atom : Atom} (spells : SpellsAtom tokens atom) :
      SpellsPlace tokens (.afterAtom atom)
  | dimension {tokens : List Token} {components : List (Symbol × Literal)}
      (before : SpellsStart tokens components) : SpellsPlace tokens (.dimension components)
  | afterDimension {tokens : List Token} {components : List (Symbol × Literal)}
      (before : SpellsStart tokens components) (name : Symbol) :
      SpellsPlace (tokens ++ [.symbol name]) (.afterDimension components name)
  | component {tokens : List Token} {components : List (Symbol × Literal)}
      (before : SpellsStart tokens components) (name : Symbol) :
      SpellsPlace (tokens ++ [.symbol name, .colon]) (.component components name)
  | afterComponent {tokens : List Token} {first : Symbol × Literal}
      {others : List (Symbol × Literal)} (spells : SpellsComponents tokens (first :: others)) :
      SpellsPlace (.leftBrace :: tokens) (.afterComponent first others)

/-- These tokens bring a reader from its start to its state. -/
inductive SpellsReader : List Token → Reader → Prop where
  | mk {outer tokens placed : List Token} {enclosing : List OpenChain} {chain : OpenChain}
      {place : ReaderPlace} (around : SpellsEnclosing outer enclosing)
      (before : SpellsChain tokens chain) (spells : SpellsPlace placed place) :
      SpellsReader (outer ++ (tokens ++ placed)) ⟨enclosing, chain, place⟩

namespace Reader

/-- A component that has just been read follows those before it. -/
theorem spells_ofComponents {tokens more : List Token} {components : List (Symbol × Literal)}
    {component : Symbol × Literal} (before : SpellsStart tokens components)
    (spells : SpellsComponent more component) :
    SpellsPlace (tokens ++ more) (.ofComponents components component) := by
  cases before with
  | first => exact .afterComponent (.one spells)
  | next before =>
      have longer := SpellsPlace.afterComponent (before.next spells)
      rw [List.cons_append, List.append_assoc, List.singleton_append]
      exact longer

/-- These atoms are spelled by their own token. -/
theorem spells_atom? {token : Token} {atom : Atom} (made : atom? token = some atom) :
    SpellsAtom [token] atom := by
  cases token <;> cases made
  all_goals exact ⟨by constructor, .single (by simp [Atom.forget])⟩

theorem spells_literal? {token : Token} {literal : Literal} (made : literal? token = some literal) :
    token = literal.token := by
  cases token <;> cases made <;> rfl

/-- A marked boolean stands for a colon and the boolean. -/
theorem spells_markedLiteral? {symbol : Symbol} {literal : Literal}
    (made : markedLiteral? symbol = some literal) :
    ∃ truth, literal = .boolean truth ∧ symbol = ⟨toString truth, .colon⟩ := by
  obtain ⟨name, mark⟩ := symbol
  cases mark with
  | tick => cases made
  | colon =>
      simp only [markedLiteral?, beq_iff_eq] at made
      split at made
      · next same =>
          cases made
          exact ⟨true, rfl, by rw [same]; rfl⟩
      · split at made
        · next same =>
            cases made
            exact ⟨false, rfl, by rw [same]; rfl⟩
        · cases made

/-- Closing a chain gives it precedence in the order of its tokens. -/
theorem close_spells {tokens more : List Token} {chain : OpenChain} {last : Atom}
    (before : SpellsChain tokens chain) (spells : SpellsAtom more last) :
    SpellsTree (tokens ++ more) (chain.close last).forget ∧ (chain.close last).forget.Standard := by
  have closing (value : Atom) (links : List (Operator × Atom)) (rest : List Token)
      (later : SpellsAtoms rest value links) :
      let closed := chain.foldl
        (fun (rest : Atom × List (Operator × Atom)) link => (link.1, (link.2, rest.1) :: rest.2))
        (value, links)
      SpellsAtoms (tokens ++ rest) closed.1 closed.2 := by
    induction before generalizing value links rest with
    | nil => exact later
    | @cons tokens more chain atom before ofAtom operator known =>
        have longer := known _ _ _ (ofAtom.next operator later)
        simpa using longer
  exact (closing last [] more spells.last).ofChain

/-- An atom of its own token follows an open chain. -/
theorem spells_placed {outer chained : List Token} {enclosing : List OpenChain} {chain : OpenChain}
    {token : Token} {atom : Atom} (around : SpellsEnclosing outer enclosing)
    (before : SpellsChain chained chain) (made : atom? token = some atom) :
    SpellsReader (outer ++ (chained ++ []) ++ [token]) ⟨enclosing, chain, .afterAtom atom⟩ := by
  simpa using SpellsReader.mk around before (.afterAtom (spells_atom? made))

/-- A reader whose step takes a token is spelled by one token more. -/
theorem step?_spells {tokens : List Token} {reader next : Reader} {token : Token}
    (spells : SpellsReader tokens reader) (taken : reader.step? token = some next) :
    SpellsReader (tokens ++ [token]) next := by
  obtain @⟨outer, chained, placed, enclosing, chain, place, around, before, holds⟩ := spells
  cases holds with
  | operand =>
      cases token
      case leftParen =>
        cases taken
        have opened := SpellsReader.mk (around.cons before) .nil .operand
        simpa using opened
      case leftBrace =>
        cases taken
        have started := SpellsReader.mk around before (.dimension .first)
        simpa using started
      case integer | dice | symbol | name | boolean =>
        cases taken
        exact spells_placed around before rfl
      all_goals cases taken
  | afterAtom ofAtom =>
      cases token
      case operator operator =>
        cases taken
        have linked := SpellsReader.mk around (before.cons ofAtom operator) .operand
        simpa using linked
      case rightParen =>
        cases around with
        | nil => cases taken
        | cons outside inside =>
            cases taken
            obtain ⟨spells, standard⟩ := close_spells before ofAtom
            have closed : SpellsAtom _ (.group (OpenChain.close chain _)) :=
              ⟨.group spells, .group standard.ordered standard.inner⟩
            have grouped := SpellsReader.mk outside inside (.afterAtom closed)
            simpa using grouped
      all_goals cases taken
  | dimension start =>
      cases token
      case symbol name =>
        cases taken
        have named := SpellsReader.mk around before (.afterDimension start name)
        simpa using named
      all_goals cases taken
  | afterDimension start name =>
      cases token
      case colon =>
        cases taken
        have separated := SpellsReader.mk around before (.component start name)
        simpa using separated
      case symbol mark =>
        change (markedLiteral? mark).map _ = some next at taken
        obtain ⟨literal, made, rfl⟩ := Option.map_eq_some_iff.1 taken
        obtain ⟨truth, rfl, rfl⟩ := spells_markedLiteral? made
        have component := SpellsReader.mk around before
          (spells_ofComponents start (.marked name truth))
        simpa using component
      all_goals cases taken
  | component start name =>
      change (literal? token).map _ = some next at taken
      obtain ⟨literal, made, rfl⟩ := Option.map_eq_some_iff.1 taken
      obtain rfl := spells_literal? made
      have component := SpellsReader.mk around before
        (spells_ofComponents start (.separate name literal))
      simpa using component
  | afterComponent spells =>
      cases token
      case comma =>
        cases taken
        have started := SpellsReader.mk around before (.dimension (.next spells))
        simpa using started
      case rightBrace =>
        cases taken
        have ofVector : SpellsAtom _ (.vector _ _) := ⟨.vector spells, .single (by simp [Atom.forget])⟩
        have ended := SpellsReader.mk around before (.afterAtom ofVector)
        simpa using ended
      all_goals cases taken

/-- This function runs a reader over tokens. -/
def run? (reader : Reader) (tokens : List Token) : Option Reader :=
  tokens.foldlM step? reader

theorem run?_spells {tokens more : List Token} {reader next : Reader}
    (spells : SpellsReader tokens reader) (ran : reader.run? more = some next) :
    SpellsReader (tokens ++ more) next := by
  induction more generalizing tokens reader with
  | nil =>
      cases ran
      simpa using spells
  | cons token more known =>
      rw [run?, List.foldlM_cons] at ran
      obtain ⟨middle, taken, later⟩ := Option.bind_eq_some_iff.1 ran
      have longer := known (step?_spells spells taken) later
      simpa using longer

/-- Reading succeeds when the run over all tokens ends in a complete text. -/
theorem read_eq_ok_iff {reader : Reader} {tokens : List Token} {condition : Condition} :
    reader.read tokens = .ok condition ↔
      ∃ last, reader.run? tokens = some last ∧ last.finish? = some condition := by
  induction tokens generalizing reader with
  | nil =>
      rw [read]
      cases ended : reader.finish? <;> simp [run?, ended]
  | cons token tokens known =>
      rw [read, run?, List.foldlM_cons]
      cases taken : reader.step? token with
      | none => simp
      | some next => exact known

theorem spells_start : SpellsReader [] start :=
  .mk .nil .nil .operand

/-- What has been read is a standard tree that the tokens spell. -/
theorem read_spells {tokens : List Token} {condition : Condition}
    (accepted : start.read tokens = .ok condition) :
    SpellsTree tokens condition.forget ∧ condition.forget.Standard := by
  obtain ⟨last, ran, finished⟩ := read_eq_ok_iff.1 accepted
  have spells := run?_spells spells_start ran
  rw [List.nil_append] at spells
  obtain @⟨outer, chained, placed, enclosing, chain, place, around, before, holds⟩ := spells
  cases around with
  | cons => cases finished
  | nil =>
      cases holds with
      | afterAtom ofAtom =>
          cases finished
          simpa using close_spells before ofAtom
      | _ => cases finished

theorem run?_append (reader : Reader) (first second : List Token) :
    reader.run? (first ++ second) = (reader.run? first).bind fun next => next.run? second :=
  List.foldlM_append

theorem run?_cons (reader : Reader) (token : Token) (tokens : List Token) :
    reader.run? (token :: tokens) = (reader.step? token).bind fun next => next.run? tokens :=
  List.foldlM_cons

section Completeness

variable (enclosing : List OpenChain) (chain : OpenChain)

theorem run?_component {tokens : List Token} {component : Symbol × Literal}
    (spells : SpellsComponent tokens component) (components : List (Symbol × Literal)) :
    Reader.run? ⟨enclosing, chain, .dimension components⟩ tokens =
      some ⟨enclosing, chain, .ofComponents components component⟩ := by
  cases spells with
  | separate dimension literal => cases literal <;> rfl
  | marked dimension truth => cases truth <;> rfl

/-- Spelled components are read one after another. -/
theorem run?_components {tokens : List Token} {components : List (Symbol × Literal)}
    (spells : SpellsComponents tokens components) :
    ∃ first others, components = first :: others ∧
      Reader.run? ⟨enclosing, chain, .dimension []⟩ tokens =
        some ⟨enclosing, chain, .afterComponent first others⟩ := by
  induction spells with
  | one spells => exact ⟨_, [], rfl, run?_component enclosing chain spells []⟩
  | @next tokens more components component before spells known =>
      obtain ⟨first, others, rfl, ran⟩ := known
      refine ⟨first, others ++ [component], rfl, ?_⟩
      rw [run?_append, ran, Option.bind_some, run?_cons]
      exact run?_component enclosing chain spells (first :: others)

/-- This function opens a chain further; its last atom is not linked yet. -/
def extend (chain : OpenChain) (value : Atom) : List (Operator × Atom) → OpenChain × Atom
  | [] => (chain, value)
  | link :: links => extend ((value, link.1) :: chain) link.2 links

/-- Closing what a chain was opened by gives the chain its precedence. -/
theorem close_extend (value : Atom) (links : List (Operator × Atom)) :
    OpenChain.close (extend [] value links).1 (extend [] value links).2 =
      Condition.ofChain value links := by
  have closing (open' : OpenChain) :
      (extend open' value links).1.foldl
          (fun (rest : Atom × List (Operator × Atom)) link => (link.1, (link.2, rest.1) :: rest.2))
          ((extend open' value links).2, []) =
        open'.foldl
          (fun (rest : Atom × List (Operator × Atom)) link => (link.1, (link.2, rest.1) :: rest.2))
          (value, links) := by
    induction links generalizing open' value with
    | nil => rfl
    | cons link links known => exact known link.2 ((value, link.1) :: open')
  rw [OpenChain.close, closing []]
  rfl

/-- These tokens are read as an atom for the operand, wherever an operand may stand. -/
def ReadsOperand (tokens : List Token) (operand : Operand) : Prop :=
  operand.Standard → ∀ (enclosing : List OpenChain) (chain : OpenChain),
    ∃ atom : Atom, atom.forget = operand ∧
      Reader.run? ⟨enclosing, chain, .operand⟩ tokens = some ⟨enclosing, chain, .afterAtom atom⟩

/-- These tokens are read as atoms for the operands of a sequence. -/
def ReadsSequence (tokens : List Token) (operand : Operand) (links : List (Operator × Operand)) :
    Prop :=
  (∀ other ∈ operand :: links.map Prod.snd, other.Standard) →
    ∀ (enclosing : List OpenChain) (chain : OpenChain),
      ∃ value atoms, Atom.forget value = operand ∧ atoms.map forgetLink = links ∧
        Reader.run? ⟨enclosing, chain, .operand⟩ tokens =
          some ⟨enclosing, (extend chain value atoms).1, .afterAtom (extend chain value atoms).2⟩

theorem reads_atom {token : Token} (atom : Atom)
    (placed : ∀ (enclosing : List OpenChain) (chain : OpenChain),
      Reader.step? ⟨enclosing, chain, .operand⟩ token = some ⟨enclosing, chain, .afterAtom atom⟩) :
    ReadsOperand [token] atom.forget := by
  intro _ enclosing chain
  refine ⟨atom, rfl, ?_⟩
  rw [run?_cons, placed]
  rfl

theorem reads_vector {tokens : List Token} {first : Symbol × Literal}
    {others : List (Symbol × Literal)} (spells : SpellsComponents tokens (first :: others)) :
    ReadsOperand (.leftBrace :: (tokens ++ [.rightBrace])) (.vector first others) := by
  intro _ enclosing chain
  obtain ⟨_, _, same, ran⟩ := run?_components enclosing chain spells
  obtain ⟨rfl, rfl⟩ := List.cons.inj same
  refine ⟨.vector first others, rfl, ?_⟩
  change Reader.run? ⟨enclosing, chain, .dimension []⟩ (tokens ++ [.rightBrace]) = _
  rw [run?_append, ran]
  rfl

/-- The chain of a group becomes the only standard tree with its operands and operators. -/
theorem reads_group {tokens : List Token} {tree : OperatorTree Operand}
    (inner : ReadsSequence tokens tree.first tree.rest) :
    ReadsOperand (.leftParen :: (tokens ++ [.rightParen])) (.group tree) := by
  intro standard enclosing chain
  obtain ⟨ordered, operands⟩ : tree.Ordered Operator.rank ∧
      ∀ operand ∈ tree.leaves, operand.Standard := by
    cases standard with
    | single noGroup => exact absurd rfl (noGroup tree)
    | group ordered operands => exact ⟨ordered, operands⟩
  obtain ⟨value, atoms, head, tail, ran⟩ := inner operands (chain :: enclosing) []
  obtain ⟨alsoOrdered, alsoHead, alsoTail⟩ := Condition.forget_ofChain value atoms
  have same : (Condition.ofChain value atoms).forget = tree :=
    alsoOrdered.unique ordered (alsoHead.trans head) (alsoTail.trans tail)
  refine ⟨.group (Condition.ofChain value atoms), congrArg Operand.group same, ?_⟩
  change Reader.run? ⟨chain :: enclosing, [], .operand⟩ (tokens ++ [.rightParen]) = _
  rw [run?_append, ran, Option.bind_some, ← close_extend]
  rfl

theorem reads_last {tokens : List Token} {operand : Operand} (reads : ReadsOperand tokens operand) :
    ReadsSequence tokens operand [] := by
  intro standard enclosing chain
  obtain ⟨atom, same, ran⟩ := reads (standard operand (by simp)) enclosing chain
  exact ⟨atom, [], same, rfl, ran⟩

theorem reads_next {tokens more : List Token} {operand second : Operand} {operator : Operator}
    {links : List (Operator × Operand)} (reads : ReadsOperand tokens operand)
    (rest : ReadsSequence more second links) :
    ReadsSequence (tokens ++ .operator operator :: more) operand ((operator, second) :: links) := by
  intro standard enclosing chain
  obtain ⟨head, later⟩ := List.forall_mem_cons.1 standard
  obtain ⟨atom, rfl, ran⟩ := reads head enclosing chain
  obtain ⟨value, atoms, rfl, rfl, alsoRan⟩ := rest later enclosing ((atom, operator) :: chain)
  refine ⟨atom, (operator, value) :: atoms, rfl, rfl, ?_⟩
  rw [run?_append, ran, Option.bind_some, run?_cons]
  exact alsoRan

mutual

theorem run?_operand {tokens : List Token} {operand : Operand} :
    SpellsOperand tokens operand → ReadsOperand tokens operand
  | .integer number => reads_atom (.integer number) fun _ _ => rfl
  | .boolean truth => reads_atom (.boolean truth) fun _ _ => rfl
  | .symbol category => reads_atom (.symbol category) fun _ _ => rfl
  | .dice pool => reads_atom (.dice pool) fun _ _ => rfl
  | .name bound => reads_atom (.name bound) fun _ _ => rfl
  | .vector components => reads_vector components
  | .group inner => reads_group (run?_sequence inner)

/-- Every spelling of standard operands is read as atoms that forget to these operands. -/
theorem run?_sequence {tokens : List Token} {operand : Operand}
    {links : List (Operator × Operand)} :
    SpellsSequence tokens operand links → ReadsSequence tokens operand links
  | .last spells => reads_last (run?_operand spells)
  | .next spells rest => reads_next (run?_operand spells) (run?_sequence rest)

end

/-- Every spelling of a standard tree is read as this tree. -/
theorem read_of_spells {tokens : List Token} {tree : OperatorTree Operand}
    (spells : SpellsTree tokens tree) (standard : tree.Standard) :
    ∃ condition, start.read tokens = .ok condition ∧ condition.forget = tree := by
  obtain ⟨value, atoms, head, tail, ran⟩ := run?_sequence spells standard.inner [] []
  obtain ⟨ordered, alsoHead, alsoTail⟩ := Condition.forget_ofChain value atoms
  refine ⟨Condition.ofChain value atoms, read_eq_ok_iff.2 ⟨_, ran, ?_⟩, ?_⟩
  · rw [← close_extend]
    rfl
  · exact ordered.unique standard.ordered (alsoHead.trans head) (alsoTail.trans tail)

end Completeness

end Reader

namespace Statement

/-- These tokens of a definition stand in front of its condition. -/
def headTokens : Statement → List Token
  | .expression _ => []
  | .definition name _ => [.name name, .define]

/-- A statement is read from its head and from the tokens of its condition. -/
theorem exists_of_read {tokens : List Token} {statement : Statement}
    (accepted : Statement.read tokens = .ok statement) :
    ∃ more, tokens = statement.headTokens ++ more ∧
      Reader.start.read more = .ok statement.condition := by
  unfold Statement.read at accepted
  split at accepted
  · next name more =>
      obtain ⟨condition, read, made⟩ := Except.bind_eq_ok accepted
      cases made
      exact ⟨more, rfl, read⟩
  · obtain ⟨condition, read, made⟩ := Except.bind_eq_ok accepted
    cases made
    exact ⟨tokens, rfl, read⟩

theorem read_of_ofSource {text : List Char} {statement : Statement}
    (accepted : Statement.ofSource text = .ok statement) :
    Statement.read ((lexemes text).map Lexeme.token) = .ok statement :=
  Except.mapError_eq_ok accepted

/-- A text that is read as a statement spells the standard tree of the condition. -/
theorem exists_spells_of_ofSource {text : List Char} {statement : Statement}
    (accepted : Statement.ofSource text = .ok statement) :
    ∃ tokens, (lexemes text).map Lexeme.token = statement.headTokens ++ tokens ∧
      SpellsTree tokens statement.condition.forget ∧ statement.condition.forget.Standard := by
  obtain ⟨tokens, split, read⟩ := exists_of_read (read_of_ofSource accepted)
  obtain ⟨spells, standard⟩ := Reader.read_spells read
  exact ⟨tokens, split, spells, standard⟩

/-- Every text that is read as a statement spells one tree that gives every operator its precedence,
inside of groups as well, and this tree is the condition of the statement. -/
theorem ofSource_precedence {text : List Char} {statement : Statement}
    (accepted : Statement.ofSource text = .ok statement) :
    ∃ tokens, (lexemes text).map Lexeme.token = statement.headTokens ++ tokens ∧
      SpellsTree tokens statement.condition.forget ∧ statement.condition.forget.Standard ∧
      ∀ tree, SpellsTree tokens tree → tree.Standard → tree = statement.condition.forget := by
  obtain ⟨tokens, split, read⟩ := exists_of_read (read_of_ofSource accepted)
  obtain ⟨spells, standard⟩ := Reader.read_spells read
  refine ⟨tokens, split, spells, standard, fun tree alsoSpells alsoStandard => ?_⟩
  obtain ⟨condition, again, same⟩ := Reader.read_of_spells alsoSpells alsoStandard
  rw [read] at again
  cases again
  exact same.symm

/-- In a difference the product on the right is the only right child that binds more tightly. -/
theorem ofSource_precedence_difference :
    let tree : OperatorTree Operand := .node (.leaf (.integer 1)) .subtract
      (.node (.leaf (.integer 2)) .multiply (.leaf (.integer 3)))
    ∃ tokens, (lexemes ['1', '-', '2', '*', '3']).map Lexeme.token = tokens ∧
      SpellsTree tokens tree ∧ ∀ other, SpellsTree tokens other → other.Standard → other = tree := by
  intro tree
  have accepted : Statement.ofSource ['1', '-', '2', '*', '3'] =
      .ok (.expression (.leaf (.node (.leaf (.integer 1)) .subtract
        (.node (.leaf (.integer 2)) .multiply (.leaf (.integer 3)))))) := by
    cbv
  obtain ⟨tokens, split, spells, -, unique⟩ := ofSource_precedence accepted
  exact ⟨tokens, split, spells, unique⟩

end Statement

end DiceOdds
