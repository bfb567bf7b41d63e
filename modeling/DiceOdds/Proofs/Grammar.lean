import DiceOdds.Proofs.Lexing
import DiceOdds.Proofs.Reading

/-
This file states the grammar of statements over tokens alone and shows that exactly the texts whose
tokens it derives are read as statements. Derived tokens are the spellings of standard trees.
-/

namespace DiceOdds

/-- A component has a literal after a colon, or a boolean whose colon belongs to the next symbol. -/
inductive IsComponent : List Token → Prop where
  | integer (dimension : Symbol) (number : Int) :
      IsComponent [.symbol dimension, .colon, .integer number]
  | boolean (dimension : Symbol) (truth : Bool) :
      IsComponent [.symbol dimension, .colon, .boolean truth]
  | marked (dimension : Symbol) {tail : Symbol} (mark : tail.mark = .colon)
      (named : tail.name = "true" ∨ tail.name = "false") :
      IsComponent [.symbol dimension, .symbol tail]

/-- Commas stand between the components of a vector. -/
inductive IsComponents : List Token → Prop where
  | one {tokens : List Token} (component : IsComponent tokens) : IsComponents tokens
  | next {tokens more : List Token} (before : IsComponents tokens) (component : IsComponent more) :
      IsComponents (tokens ++ .comma :: more)

mutual

/-- These tokens are derived as an atom. -/
inductive IsAtom : List Token → Prop where
  | integer (number : Int) : IsAtom [.integer number]
  | dice (pool : DicePool) : IsAtom [.dice pool]
  | symbol (category : Symbol) : IsAtom [.symbol category]
  | name (bound : String) : IsAtom [.name bound]
  | boolean (truth : Bool) : IsAtom [.boolean truth]
  | group {tokens : List Token} (chain : IsChain tokens) :
      IsAtom (.leftParen :: (tokens ++ [.rightParen]))
  | vector {tokens : List Token} (components : IsComponents tokens) :
      IsAtom (.leftBrace :: (tokens ++ [.rightBrace]))

/-- A chain has any operators between its atoms. -/
inductive IsChain : List Token → Prop where
  | last {tokens : List Token} (atom : IsAtom tokens) : IsChain tokens
  | next {tokens more : List Token} (atom : IsAtom tokens) (operator : Operator)
      (rest : IsChain more) : IsChain (tokens ++ .operator operator :: more)

end

/-- A statement is a chain, or a name and a definition sign in front of one. -/
inductive IsStatement : Option String → List Token → Prop where
  | expression {tokens : List Token} (chain : IsChain tokens) : IsStatement none tokens
  | definition {tokens : List Token} (name : String) (chain : IsChain tokens) :
      IsStatement (some name) (.name name :: .define :: tokens)

section Spelling

variable {tokens : List Token}

theorem SpellsComponent.isComponent {component : Symbol × Literal}
    (spells : SpellsComponent tokens component) : IsComponent tokens := by
  cases spells with
  | separate dimension literal =>
      cases literal with
      | integer number => exact .integer dimension number
      | boolean truth => exact .boolean dimension truth
  | marked dimension truth =>
      refine .marked dimension rfl ?_
      cases truth
      · exact .inr rfl
      · exact .inl rfl

theorem IsComponent.exists_spells (derived : IsComponent tokens) :
    ∃ component, SpellsComponent tokens component := by
  cases derived with
  | integer dimension number => exact ⟨_, .separate dimension (.integer number)⟩
  | boolean dimension truth => exact ⟨_, .separate dimension (.boolean truth)⟩
  | @marked dimension tail mark named =>
      obtain ⟨name, _⟩ := tail
      obtain rfl := mark
      rcases named with rfl | rfl
      · exact ⟨_, .marked dimension true⟩
      · exact ⟨_, .marked dimension false⟩

theorem SpellsComponents.isComponents {components : List (Symbol × Literal)}
    (spells : SpellsComponents tokens components) : IsComponents tokens := by
  induction spells with
  | one spells => exact .one spells.isComponent
  | next before spells known => exact .next known spells.isComponent

theorem IsComponents.exists_spells (derived : IsComponents tokens) :
    ∃ first others, SpellsComponents tokens (first :: others) := by
  induction derived with
  | one component =>
      obtain ⟨first, spells⟩ := component.exists_spells
      exact ⟨first, [], .one spells⟩
  | next before component known =>
      obtain ⟨first, others, spells⟩ := known
      obtain ⟨last, alsoSpells⟩ := component.exists_spells
      exact ⟨first, others ++ [last], spells.next alsoSpells⟩

mutual

theorem SpellsOperand.isAtom {tokens : List Token} {operand : Operand} :
    SpellsOperand tokens operand → IsAtom tokens
  | .integer number => .integer number
  | .boolean truth => .boolean truth
  | .symbol category => .symbol category
  | .dice pool => .dice pool
  | .name bound => .name bound
  | .vector components => .vector components.isComponents
  | .group inner => .group inner.isChain

/-- What spells a sequence of operands is a chain. -/
theorem SpellsSequence.isChain {tokens : List Token} {operand : Operand}
    {links : List (Operator × Operand)} : SpellsSequence tokens operand links → IsChain tokens
  | .last spells => .last spells.isAtom
  | .next spells rest => .next spells.isAtom _ rest.isChain

end

/-- Standard operands with operators between them have a standard tree. -/
theorem exists_standard {operand : Operand} {links : List (Operator × Operand)}
    (standard : ∀ other ∈ operand :: links.map Prod.snd, other.Standard) :
    ∃ tree : OperatorTree Operand, tree.first = operand ∧ tree.rest = links ∧ tree.Standard := by
  have first : (OperatorTree.ofChain Operator.rank operand links).first = operand := by
    simp [OperatorTree.ofChain]
  have rest : (OperatorTree.ofChain Operator.rank operand links).rest = links := by
    simp [OperatorTree.ofChain]
  refine ⟨_, first, rest, OperatorTree.ofChain_ordered operand links, ?_⟩
  rw [OperatorTree.leaves, first, rest]
  exact standard

mutual

theorem IsAtom.exists_spells {tokens : List Token} :
    IsAtom tokens → ∃ operand, SpellsOperand tokens operand ∧ operand.Standard
  | .integer number => ⟨_, .integer number, .single (by simp)⟩
  | .dice pool => ⟨_, .dice pool, .single (by simp)⟩
  | .symbol category => ⟨_, .symbol category, .single (by simp)⟩
  | .name bound => ⟨_, .name bound, .single (by simp)⟩
  | .boolean truth => ⟨_, .boolean truth, .single (by simp)⟩
  | .group chain => by
      obtain ⟨tree, spells, standard⟩ := chain.exists_spells
      exact ⟨_, .group spells, .group standard.ordered standard.inner⟩
  | .vector components => by
      obtain ⟨first, others, spells⟩ := components.exists_spells
      exact ⟨_, .vector spells, .single (by simp)⟩

/-- Every chain spells a standard tree. -/
theorem IsChain.exists_spells {tokens : List Token} :
    IsChain tokens → ∃ tree, SpellsTree tokens tree ∧ tree.Standard
  | .last atom => by
      obtain ⟨operand, spells, standard⟩ := atom.exists_spells
      refine ⟨.leaf operand, .last spells, trivial, fun other member => ?_⟩
      obtain rfl := List.mem_singleton.1 member
      exact standard
  | .next atom operator rest => by
      obtain ⟨operand, spells, standard⟩ := atom.exists_spells
      obtain ⟨later, alsoSpells, alsoStandard⟩ := rest.exists_spells
      have operands : ∀ other ∈ operand :: ((operator, later.first) :: later.rest).map Prod.snd,
          other.Standard := List.forall_mem_cons.2 ⟨standard, alsoStandard.inner⟩
      obtain ⟨tree, first, links, ofTree⟩ := exists_standard operands
      refine ⟨tree, ?_, ofTree⟩
      rw [SpellsTree, first, links]
      exact .next spells alsoSpells

end

end Spelling

/-- The reader completes a condition exactly on the tokens of a chain. -/
theorem Reader.exists_read_iff {tokens : List Token} :
    (∃ condition, start.read tokens = .ok condition) ↔ IsChain tokens := by
  constructor
  · rintro ⟨condition, read⟩
    exact (read_spells read).1.isChain
  · intro chain
    obtain ⟨tree, spells, standard⟩ := chain.exists_spells
    obtain ⟨condition, read, -⟩ := read_of_spells spells standard
    exact ⟨condition, read⟩

namespace Statement

/-- This function splits tokens into the name that they define, if they do, and the tokens of the
condition. -/
def splitHead : List Token → Option String × List Token
  | .name name :: .define :: rest => (some name, rest)
  | tokens => (none, tokens)

/-- This is the statement with a condition under a name or under none. -/
def ofParts : Option String → Condition → Statement
  | none, condition => .expression condition
  | some name, condition => .definition name condition

theorem definedName?_ofParts (defined : Option String) (condition : Condition) :
    (ofParts defined condition).definedName? = defined := by
  cases defined <;> rfl

/-- Tokens that do not start like a definition belong to the condition. -/
theorem splitHead_of_ne {tokens : List Token}
    (noHead : ∀ name rest, tokens ≠ .name name :: .define :: rest) :
    splitHead tokens = (none, tokens) := by
  rw [splitHead]
  exact noHead

theorem read_eq (tokens : List Token) :
    Statement.read tokens =
      (Reader.start.read (splitHead tokens).2).map (ofParts (splitHead tokens).1) := by
  unfold Statement.read
  split
  · rfl
  · next noHead =>
      rw [splitHead_of_ne noHead]
      rfl

theorem splitHead_of_isChain {tokens : List Token} (chain : IsChain tokens) :
    splitHead tokens = (none, tokens) := by
  apply splitHead_of_ne
  rintro name rest rfl
  obtain ⟨condition, read⟩ := Reader.exists_read_iff.2 chain
  cases read

/-- The head of the tokens decides what they define, and a chain follows it. -/
theorem isStatement_iff {defined : Option String} {tokens : List Token} :
    IsStatement defined tokens ↔
      (splitHead tokens).1 = defined ∧ IsChain (splitHead tokens).2 := by
  constructor
  · rintro (chain | ⟨name, chain⟩)
    · rw [splitHead_of_isChain chain]
      exact ⟨rfl, chain⟩
    · exact ⟨rfl, chain⟩
  · rintro ⟨rfl, chain⟩
    unfold splitHead at *
    split at *
    · exact .definition _ chain
    · exact .expression chain

theorem exists_read_iff {defined : Option String} {tokens : List Token} :
    (∃ statement, Statement.read tokens = .ok statement ∧ statement.definedName? = defined) ↔
      IsStatement defined tokens := by
  rw [isStatement_iff, ← Reader.exists_read_iff, read_eq]
  cases Reader.start.read (splitHead tokens).2 with
  | error obstacle => simp [Except.map]
  | ok condition => simp [Except.map, definedName?_ofParts]

theorem ofSource_eq_ok_iff {text : List Char} {statement : Statement} :
    Statement.ofSource text = .ok statement ↔ Statement.read (tokensOf text) = .ok statement := by
  refine ⟨read_of_ofSource, fun accepted => ?_⟩
  unfold tokensOf at accepted
  rw [ofSource, accepted]
  rfl

/-- A text is read as a statement exactly when the grammar derives its tokens. It defines a name
exactly when this name and a definition sign stand in front. -/
theorem ofSource_derives (text : List Char) :
    ((∃ statement, Statement.ofSource text = .ok statement) ↔
      ∃ defined, IsStatement defined (tokensOf text)) ∧
    ∀ statement, Statement.ofSource text = .ok statement → ∀ name,
      (statement.definedName? = some name ↔
        ∃ more, tokensOf text = .name name :: .define :: more) := by
  simp only [ofSource_eq_ok_iff]
  generalize tokensOf text = tokens
  refine ⟨?_, fun statement read name => ?_⟩
  · constructor
    · rintro ⟨statement, read⟩
      exact ⟨_, exists_read_iff.1 ⟨statement, read, rfl⟩⟩
    · rintro ⟨defined, derived⟩
      obtain ⟨statement, read, -⟩ := exists_read_iff.2 derived
      exact ⟨statement, read⟩
  · constructor
    · intro defines
      have derived := exists_read_iff.1 ⟨statement, read, defines⟩
      cases derived with
      | definition _ chain => exact ⟨_, rfl⟩
    · rintro ⟨more, rfl⟩
      have derived := exists_read_iff.1 ⟨statement, read, rfl⟩
      exact (isStatement_iff.1 derived).1.symm

/-- A definition of a group is derived, so it is read as one. -/
theorem ofSource_derives_group :
    let text := ['$', 'n', ':', '=', '(', '1', ')']
    IsStatement (some "n") (tokensOf text) ∧
      ∃ statement, Statement.ofSource text = .ok statement ∧ statement.definedName? = some "n" := by
  intro text
  have tokens : tokensOf text =
      [.name "n", .define, .leftParen, .integer 1, .rightParen] := by
    simp only [text]
    cbv
  have derived : IsStatement (some "n") (tokensOf text) := by
    rw [tokens]
    exact .definition "n" (.last (.group (.last (.integer 1))))
  obtain ⟨accepts, defines⟩ := ofSource_derives text
  obtain ⟨statement, accepted⟩ := accepts.2 ⟨some "n", derived⟩
  exact ⟨derived, statement, accepted, (defines statement accepted "n").2 ⟨_, tokens⟩⟩

end Statement

end DiceOdds
