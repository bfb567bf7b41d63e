import DiceOdds.Proofs.Display
import DiceOdds.Proofs.Substitution

/-
This file reads the raw text of a statement again, with round brackets in the place of square ones.
The text shows every node as a group, so it spells a tree of groups only; without its groups this is
the tree of the statement, and groups change neither types nor outcomes.
-/

namespace DiceOdds

section Groups

mutual

/-- This function takes all groups away and leaves what they hold. -/
def Operand.ungrouped : Operand → OperatorTree Operand
  | .group tree => ungroupedTree tree
  | .integer number => .leaf (.integer number)
  | .boolean truth => .leaf (.boolean truth)
  | .symbol category => .leaf (.symbol category)
  | .dice pool => .leaf (.dice pool)
  | .vector first others => .leaf (.vector first others)
  | .name bound => .leaf (.name bound)

def ungroupedTree : OperatorTree Operand → OperatorTree Operand
  | .leaf operand => Operand.ungrouped operand
  | .node left operator right => .node (ungroupedTree left) operator (ungroupedTree right)

end

mutual

/-- What the raw text of an operand shows has a group around every node and every group. -/
def Operand.shown : Operand → Operand
  | .group tree => .group (.leaf (shownTree tree))
  | .integer number => .integer number
  | .boolean truth => .boolean truth
  | .symbol category => .symbol category
  | .dice pool => .dice pool
  | .vector first others => .vector first others
  | .name bound => .name bound

def shownTree : OperatorTree Operand → Operand
  | .leaf operand => Operand.shown operand
  | .node left operator right =>
      .group (.node (.leaf (shownTree left)) operator (.leaf (shownTree right)))

end

mutual

theorem Operand.ungrouped_shown (operand : Operand) :
    operand.shown.ungrouped = operand.ungrouped := by
  cases operand with
  | group tree =>
      rw [Operand.shown, Operand.ungrouped, ungroupedTree, ungrouped_shownTree tree,
        Operand.ungrouped]
  | _ => rfl

/-- The groups that the text adds are the only difference. -/
theorem ungrouped_shownTree (tree : OperatorTree Operand) :
    (shownTree tree).ungrouped = ungroupedTree tree := by
  cases tree with
  | leaf operand => exact Operand.ungrouped_shown operand
  | node left operator right =>
      rw [shownTree, Operand.ungrouped, ungroupedTree, ungroupedTree, ungroupedTree,
        ungrouped_shownTree left, ungrouped_shownTree right, ungroupedTree]

end

mutual

/-- Groups leave the operator of a node no choice of precedence. -/
theorem Operand.shown_standard (operand : Operand) : operand.shown.Standard := by
  cases operand with
  | group tree =>
      refine .group trivial fun inner member => ?_
      obtain rfl := List.mem_singleton.1 member
      exact shownTree_standard tree
  | _ => exact .single (by simp [Operand.shown])

theorem shownTree_standard (tree : OperatorTree Operand) : (shownTree tree).Standard := by
  cases tree with
  | leaf operand => exact Operand.shown_standard operand
  | node left operator right =>
      have ordered : (OperatorTree.node (.leaf (shownTree left)) operator
          (.leaf (shownTree right))).Ordered Operator.rank :=
        ⟨trivial, trivial, by simp [OperatorTree.root?], by simp [OperatorTree.root?]⟩
      refine .group ordered ?_
      intro inner member
      rcases List.mem_pair.1 member with rfl | rfl
      · exact shownTree_standard left
      · exact shownTree_standard right

end

end Groups

section Typing

variable (scope : Scope) (limits : Limits)

mutual

theorem Operand.typed_ungrouped (operand : Operand) :
    Agree Eq Expression.Alike (operand.typed scope limits)
      (typedTree scope limits operand.ungrouped) := by
  cases operand with
  | group tree =>
      rw [Operand.typed, Operand.ungrouped,
        ← bind_pure (typedTree scope limits (ungroupedTree tree))]
      exact (typedTree_ungrouped tree).bind fun inner other alike => .ok alike
  | _ => exact .refl Expression.Alike.refl _

/-- Without its groups a tree makes the same expression up to brackets, or the same failure. -/
theorem typedTree_ungrouped (tree : OperatorTree Operand) :
    Agree Eq Expression.Alike (typedTree scope limits tree)
      (typedTree scope limits (ungroupedTree tree)) := by
  cases tree with
  | leaf operand => exact Operand.typed_ungrouped operand
  | node left operator right =>
      rw [ungroupedTree, typedTree, typedTree]
      refine (typedTree_ungrouped left).bind fun first second alike => ?_
      refine (typedTree_ungrouped right).bind fun next last also => ?_
      exact (alike.binary? operator also).mapError _

end

end Typing

/-- This function turns square brackets into round ones. -/
def roundBracket : Char → Char
  | '[' => '('
  | ']' => ')'
  | other => other

/-- A text with round brackets has them in the place of square ones as well. -/
def roundText (text : String) : List Char :=
  text.toList.map roundBracket

section Unbracketed

/-- These characters are no square brackets. -/
def Unbracketed (text : List Char) : Prop :=
  ∀ character ∈ text, roundBracket character = character

theorem Unbracketed.append {text more : List Char} (first : Unbracketed text)
    (second : Unbracketed more) : Unbracketed (text ++ more) :=
  List.forall_mem_append.2 ⟨first, second⟩

theorem Unbracketed.roundText {text : String} (without : Unbracketed text.toList) :
    roundText text = text.toList :=
  (List.map_congr_left without).trans (List.map_id _)

/-- What only has characters of a kind without square brackets has none. -/
theorem unbracketed_of_forall {kind : Char → Bool} {text : List Char}
    (members : ∀ character ∈ text, kind character = true) (opening : kind '[' = false)
    (closing : kind ']' = false) : Unbracketed text := by
  intro character member
  have holds := members character member
  unfold roundBracket
  split
  · rw [opening] at holds
    cases holds
  · rw [closing] at holds
    cases holds
  · rfl

theorem IsNumeral.unbracketed {digits : List Char} (numeral : IsNumeral digits) :
    Unbracketed digits :=
  unbracketed_of_forall numeral.decimal rfl rfl

theorem IsName.unbracketed {name : String} (written : IsName name) : Unbracketed name.toList := by
  obtain ⟨first, rest, split, starts, continues⟩ := written
  have starting : ∀ character ∈ [first], startsName character = true := by simpa using starts
  have head : Unbracketed [first] := unbracketed_of_forall starting rfl rfl
  rw [split]
  exact head.append (unbracketed_of_forall continues rfl rfl)

theorem unbracketed_truth (truth : Bool) : Unbracketed (toString truth).toList := by
  cases truth <;> simp [Unbracketed, roundBracket, toString]

theorem Symbol.Written.unbracketed {symbol : Symbol} (written : symbol.Written) :
    Unbracketed symbol.text.toList := by
  have mark : Unbracketed symbol.mark.text.toList := by
    cases symbol.mark <;> simp [Unbracketed, roundBracket, Mark.text]
  rw [Symbol.text, String.toList_append]
  exact mark.append (IsName.unbracketed written)

theorem DicePool.Written.unbracketed {pool : DicePool} (written : pool.Written) :
    Unbracketed pool.text.toList := by
  have count := (Numeral.isNumeral_toString written.count.1).unbracketed
  have sides := (Numeral.isNumeral_toString written.sides.1).unbracketed
  have kept : Unbracketed pool.keptText := by
    have isKept := DicePool.isKept_keptText written
    generalize pool.keptText = kept at isKept
    cases isKept with
    | none => exact List.forall_mem_nil _
    | some rollEnd numeral =>
        exact List.forall_mem_cons.2 ⟨by cases rollEnd <;> rfl, numeral.unbracketed⟩
  rw [DicePool.toList_text]
  exact count.append (List.forall_mem_cons.2 ⟨rfl, sides.append kept⟩)

theorem Literal.unbracketed {literal : Literal} (written : literal.token.Written) :
    Unbracketed literal.text.toList := by
  cases literal with
  | integer number => exact (Numeral.isNumeral_toString written.1).unbracketed
  | boolean truth => exact unbracketed_truth truth

theorem unbracketed_component {component : Symbol × Literal}
    (written : IsWrittenComponent component) : Unbracketed (componentText component).toList := by
  have colon : Unbracketed ": ".toList := by simp [Unbracketed, roundBracket]
  rw [componentText, String.toList_append, String.toList_append]
  exact (written.1.unbracketed.append colon).append
    (Literal.unbracketed written.2)

theorem unbracketed_intercalate {items : List String}
    (inner : ∀ item ∈ items, Unbracketed item.toList) :
    Unbracketed (", ".intercalate items).toList := by
  have comma : Unbracketed ", ".toList := by simp [Unbracketed, roundBracket]
  induction items with
  | nil => exact List.forall_mem_nil _
  | cons first rest known =>
      obtain ⟨head, later⟩ := List.forall_mem_cons.1 inner
      cases rest with
      | nil => simpa using head
      | cons second others =>
          rw [String.intercalate_cons_cons, String.toList_append, String.toList_append]
          exact (head.append comma).append (known later)

theorem unbracketed_braced {components : List (Symbol × Literal)}
    (written : ∀ component ∈ components, IsWrittenComponent component) :
    Unbracketed (bracedText (components.map componentText)).toList := by
  have opening : Unbracketed "\x7b".toList := by simp [Unbracketed, roundBracket]
  have closing : Unbracketed "\x7d".toList := by simp [Unbracketed, roundBracket]
  have inner : ∀ item ∈ components.map componentText, Unbracketed item.toList := by
    intro item member
    obtain ⟨component, inside, rfl⟩ := List.mem_map.1 member
    exact unbracketed_component (written component inside)
  rw [bracedText, String.toList_append, String.toList_append]
  exact (opening.append (unbracketed_intercalate inner)).append closing

theorem IsName.unbracketed_dollar {name : String} (written : IsName name) :
    Unbracketed ("$" ++ name).toList := by
  have dollar : Unbracketed "$".toList := by simp [Unbracketed, roundBracket]
  rw [String.toList_append]
  exact dollar.append written.unbracketed

theorem Operator.unbracketed (operator : Operator) : Unbracketed operator.text.toList := by
  rw [toList_operatorText]
  cases operator <;> simp [Unbracketed, roundBracket, operatorWord]

end Unbracketed

/-- A raw text shows an operand that it spells with round brackets. -/
def Shows (text : String) (operand : Operand) : Prop :=
  ∃ tokens, Lexes (roundText text) tokens ∧ SpellsOperand tokens operand

namespace Shows

theorem of_unbracketed {text : String} {tokens : List Token} {operand : Operand}
    (without : Unbracketed text.toList) (lexes : Lexes text.toList tokens)
    (spells : SpellsOperand tokens operand) : Shows text operand :=
  ⟨tokens, without.roundText.symm ▸ lexes, spells⟩

/-- Square brackets show a group. -/
theorem group {text : String} {operand : Operand} (shows : Shows text operand) :
    Shows ("[" ++ text ++ "]") (.group (.leaf operand)) := by
  obtain ⟨tokens, lexes, spells⟩ := shows
  refine ⟨_, ?_, .group (.last spells)⟩
  have text : roundText ("[" ++ text ++ "]") = '(' :: (roundText text ++ [')']) := by
    simp [roundText, roundBracket]
  rw [text]
  exact lexes.enclosed

/-- The parentheses of a node show a group of two operands. -/
theorem node {left right : String} {first second : Operand} (ofLeft : Shows left first)
    (operator : Operator) (ofRight : Shows right second) :
    Shows (nodeText left operator right)
      (.group (.node (.leaf first) operator (.leaf second))) := by
  obtain ⟨tokens, lexes, spells⟩ := ofLeft
  obtain ⟨more, alsoLexes, alsoSpells⟩ := ofRight
  have sign := (starts_blank.append (starts_operator operator)).append starts_blank
  have operands := (lexes.append_starts (.inl rfl) sign).append_lexes alsoLexes
  have one : SpellsTree tokens (.leaf first) := .last spells
  have other : SpellsTree more (.leaf second) := .last alsoSpells
  refine ⟨_, ?_, .group (one.node operator other)⟩
  have text : roundText (nodeText left operator right) = '(' :: (roundText left ++
      ' ' :: (operator.text.toList ++ ' ' :: (roundText right ++ [')']))) := by
    rw [← operator.unbracketed.roundText]
    simp [nodeText, roundText, roundBracket]
  rw [text]
  simpa using operands.enclosed

end Shows

mutual

theorem Atom.shows (atom : Atom) (written : atom.forget.Written) :
    Shows (Atom.text atom) atom.forget.shown := by
  cases atom with
  | integer number =>
      cases written with
      | integer written =>
          exact .of_unbracketed (Numeral.isNumeral_toString written.1).unbracketed
            (lexes_integer written) (.integer number)
  | boolean truth =>
      have lexes : Lexes (toString truth).toList [.boolean truth] :=
        @lexes_literal (.boolean truth) trivial
      exact .of_unbracketed (unbracketed_truth truth) lexes (.boolean truth)
  | symbol category =>
      cases written with
      | symbol written =>
          exact .of_unbracketed written.unbracketed (lexes_symbol written) (.symbol category)
  | dice pool =>
      cases written with
      | dice written => exact .of_unbracketed written.unbracketed (lexes_pool written) (.dice pool)
  | vector first others =>
      cases written with
      | vector written =>
          obtain ⟨tokens, lexes, spells⟩ := exists_lexes_literal written
          exact .of_unbracketed (unbracketed_braced written) lexes spells
  | name bound =>
      cases written with
      | name written =>
          exact .of_unbracketed written.unbracketed_dollar (lexes_name written) (.name bound)
  | group condition =>
      cases written with
      | group inner => exact (Condition.shows condition inner).group

theorem Term.shows (term : OperatorTree Atom)
    (written : ∀ operand ∈ (forgetTerm term).leaves, operand.Written) :
    Shows (termText term) (shownTree (forgetTerm term)) := by
  cases term with
  | leaf atom => exact Atom.shows atom (written _ List.mem_cons_self)
  | node left operator right =>
      rw [forgetTerm, OperatorTree.leaves_node] at written
      obtain ⟨ofLeft, ofRight⟩ := List.forall_mem_append.1 written
      exact (Term.shows left ofLeft).node operator (Term.shows right ofRight)

/-- The raw text of a condition shows its tree, with a group for every node. -/
theorem Condition.shows (condition : OperatorTree (OperatorTree Atom))
    (written : ∀ operand ∈ (forgetCondition condition).leaves, operand.Written) :
    Shows (conditionText condition) (shownTree (forgetCondition condition)) := by
  cases condition with
  | leaf term => exact Term.shows term written
  | node left operator right =>
      rw [forgetCondition, OperatorTree.leaves_node] at written
      obtain ⟨ofLeft, ofRight⟩ := List.forall_mem_append.1 written
      exact (Condition.shows left ofLeft).node operator (Condition.shows right ofRight)

end

namespace Statement

/-- The tokens of an accepted text can be written again, those of its head and of its operands. -/
theorem written_of_ofSource {text : List Char} {statement : Statement}
    (accepted : Statement.ofSource text = .ok statement) :
    (∀ name ∈ statement.definedName?, IsName name) ∧
      ∀ operand ∈ statement.condition.forget.leaves, operand.Written := by
  obtain ⟨tokens, split, spells, -⟩ := exists_spells_of_ofSource accepted
  have written : ∀ token ∈ statement.headTokens ++ tokens, token.Written :=
    split ▸ tokensOf_written text
  obtain ⟨ofHead, ofTokens⟩ := List.forall_mem_append.1 written
  refine ⟨fun name defined => ?_, spells.written ofTokens⟩
  cases statement with
  | expression condition => cases defined
  | definition bound condition =>
      obtain rfl := Option.some.inj defined
      exact ofHead (.name bound) List.mem_cons_self

/-- The name of a definition and the sign after it are the head of the statement. -/
theorem lexes_definition {name : String} {text : List Char} {tokens : List Token}
    (written : IsName name) (lexes : Lexes text tokens) :
    Lexes (("$" ++ name).toList ++ ' ' :: ([':', '=', ' '] ++ text))
      (.name name :: .define :: tokens) := by
  have sign : Starts [':', '='] [.define] := starts_plain (by simp [plainWords])
  have head := (lexes_name written).append_starts (.inl rfl)
    ((starts_blank.append sign).append starts_blank)
  have whole := head.append_lexes lexes
  simpa using whole

/-- With round brackets the raw text of a statement is read as the same kind of statement, with the
tree that its text shows. -/
theorem exists_ofSource_roundText {text : List Char} {statement : Statement}
    (accepted : Statement.ofSource text = .ok statement) :
    ∃ again, Statement.ofSource (roundText statement.text) = .ok again ∧
      again.definedName? = statement.definedName? ∧
      again.condition.forget = .leaf (shownTree statement.condition.forget) := by
  obtain ⟨names, written⟩ := written_of_ofSource accepted
  obtain ⟨tokens, lexes, spells⟩ := Condition.shows statement.condition written
  have standard : (OperatorTree.leaf (shownTree statement.condition.forget)).Standard := by
    refine ⟨trivial, fun operand member => ?_⟩
    obtain rfl := List.mem_singleton.1 member
    exact shownTree_standard _
  have spellsTree : SpellsTree tokens (.leaf (shownTree statement.condition.forget)) :=
    .last spells
  obtain ⟨condition, read, same⟩ := Reader.read_of_spells spellsTree standard
  cases statement with
  | expression original =>
      refine ⟨.expression condition, ?_, rfl, same⟩
      exact ofSource_of_tokensOf lexes.tokensOf (read_of_read read)
  | definition name original =>
      refine ⟨.definition name condition, ?_, rfl, same⟩
      have isName := names name rfl
      have shown : roundText (Statement.definition name original).text =
          ("$" ++ name).toList ++ ' ' :: ([':', '=', ' '] ++ roundText original.text) := by
        rw [← isName.unbracketed_dollar.roundText]
        simp [Statement.text, roundText, roundBracket]
      have whole := lexes_definition isName lexes
      refine ofSource_of_tokensOf (shown ▸ whole.tokensOf) ?_
      rw [Statement.read, read]
      rfl

end Statement

/-- Two computations that agree with a third one up to brackets have equal types and outcomes. -/
theorem Agree.of_alike {first second third : Except Failure Expression}
    (ofFirst : Agree Eq Expression.Alike first third)
    (ofSecond : Agree Eq Expression.Alike second third) :
    Agree Eq (fun one other => one.type = other.type ∧ one.evaluate = other.evaluate)
      first second := by
  cases ofFirst with
  | error same =>
      cases ofSecond with
      | error also => exact .error (same.trans also.symm)
  | ok alike =>
      cases ofSecond with
      | ok also =>
          exact .ok ⟨alike.type_eq.trans also.type_eq.symm,
            alike.evaluate_eq.trans also.evaluate_eq.symm⟩

namespace Statement

/-- The raw text of a statement is faithful. With round brackets it is read again, as a definition
of the same name or as an expression, the tree is the same one without the groups, and both have
the same type and the same outcomes, or the same failure, under every scope and all limits. -/
theorem ofSource_roundText {text : List Char} {statement : Statement}
    (accepted : Statement.ofSource text = .ok statement) :
    ∃ again, Statement.ofSource (roundText statement.text) = .ok again ∧
      again.definedName? = statement.definedName? ∧
      ungroupedTree again.condition.forget = ungroupedTree statement.condition.forget ∧
      ∀ (scope : Scope) (limits : Limits),
        Agree Eq (fun first second => first.type = second.type ∧ first.evaluate = second.evaluate)
          (statement.condition.typed scope limits) (again.condition.typed scope limits) := by
  obtain ⟨again, read, name, shown⟩ := exists_ofSource_roundText accepted
  have same : ungroupedTree again.condition.forget = ungroupedTree statement.condition.forget := by
    rw [shown, ungroupedTree, ungrouped_shownTree]
  refine ⟨again, read, name, same, fun scope limits => ?_⟩
  rw [Condition.typed_eq, Condition.typed_eq]
  have ofAgain := typedTree_ungrouped scope limits again.condition.forget
  rw [same] at ofAgain
  exact (typedTree_ungrouped scope limits statement.condition.forget).of_alike ofAgain

/-- The group of the smaller difference keeps it on the right. -/
theorem ofSource_roundText_difference :
    let smaller : Condition := .leaf (.node (.leaf (.integer 2)) .subtract (.leaf (.integer 3)))
    let statement : Statement := .definition "d"
      (.leaf (.node (.leaf (.integer 1)) .subtract (.leaf (.group smaller))))
    statement.text = "$d := (1 - [(2 - 3)])" ∧
      ∃ again, Statement.ofSource (roundText statement.text) = .ok again ∧
        again.definedName? = some "d" ∧
        ungroupedTree again.condition.forget = .node (.leaf (.integer 1)) .subtract
          (.node (.leaf (.integer 2)) .subtract (.leaf (.integer 3))) := by
  intro smaller statement
  have accepted : Statement.ofSource
      ['$', 'd', ':', '=', '1', '-', '(', '2', '-', '3', ')'] = .ok statement := by
    simp only [statement, smaller]
    cbv
  obtain ⟨again, read, name, same, -⟩ := ofSource_roundText accepted
  exact ⟨rfl, again, read, name, same⟩

end Statement

end DiceOdds
