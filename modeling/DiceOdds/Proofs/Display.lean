import DiceOdds.Proofs.Construction
import DiceOdds.Proofs.OperandTyping
import DiceOdds.Proofs.Reading

/-
This file shows that the text of an expression stands for this expression without any names. Names
are replaced by what they are bound to; a binary expression in the place of a name is a group, so
that the tree around it keeps its precedence.
-/

namespace DiceOdds

namespace Expression

/-- Conversions are not shown. -/
theorem coerce?_text {source expression : Expression} {target : ValueType}
    (made : source.coerce? target = .ok expression) : expression.text = source.text := by
  rcases coerce?_eq_ok made with ⟨-, rfl⟩ | ⟨-, rfl⟩ <;> rfl

theorem binary?_text {left right expression : Expression} {operator : Operator}
    (made : left.binary? operator right = .ok expression) :
    expression.text = left.text ++ " " ++ operator.text ++ " " ++ right.text := by
  obtain ⟨operation, first, second, found, ofLeft, ofRight, rfl⟩ := binary?_eq_ok made
  obtain ⟨-, -, same⟩ := Operation.find?_eq_some found
  rw [← coerce?_text ofLeft, ← coerce?_text ofRight, same]
  rfl

end Expression

namespace OperatorTree

theorem Standard.left {left right : OperatorTree Operand} {operator : Operator}
    (standard : (node left operator right).Standard) : left.Standard :=
  ⟨standard.ordered.1, fun operand member => standard.inner operand <| by
    rw [leaves_node]
    exact List.mem_append_left _ member⟩

theorem Standard.right {left right : OperatorTree Operand} {operator : Operator}
    (standard : (node left operator right).Standard) : right.Standard :=
  ⟨standard.ordered.2.1, fun operand member => standard.inner operand <| by
    rw [leaves_node]
    exact List.mem_append_right _ member⟩

end OperatorTree

/-- A displayed tree is spelled by the text of an expression and makes it without any names. -/
structure Displays (limits : Limits) (tree : OperatorTree Operand) (expression : Expression) :
    Prop where
  spelled : ∃ tokens, Lexes expression.text.toList tokens ∧ SpellsTree tokens tree
  standard : tree.Standard
  typed : typedTree .empty limits tree = .ok expression

namespace Displays

variable {limits : Limits} {tree : OperatorTree Operand} {expression : Expression}

theorem single {operand : Operand} {tokens : List Token}
    (noGroup : ∀ tree, operand ≠ .group tree) (lexes : Lexes expression.text.toList tokens)
    (spells : SpellsOperand tokens operand)
    (typed : operand.typed .empty limits = .ok expression) :
    Displays limits (.leaf operand) expression := by
  refine ⟨⟨tokens, lexes, .last spells⟩, ⟨trivial, fun other member => ?_⟩, typed⟩
  obtain rfl := List.mem_singleton.1 member
  exact .single noGroup

/-- Brackets make a group. -/
theorem group (displays : Displays limits tree expression) :
    Displays limits (.leaf (.group tree)) (.bracketed expression) := by
  obtain ⟨tokens, lexes, spells⟩ := displays.spelled
  refine ⟨⟨_, ?_, .last (.group spells)⟩, ⟨trivial, fun operand member => ?_⟩, ?_⟩
  · have text : (Expression.bracketed expression).text = "(" ++ expression.text ++ ")" := rfl
    rw [text]
    simpa using lexes.enclosed
  · obtain rfl := List.mem_singleton.1 member
    exact .group displays.standard.ordered displays.standard.inner
  · rw [typedTree, Operand.typed, displays.typed]
    rfl

/-- An operator between two displayed trees makes a node. -/
theorem node {left right : OperatorTree Operand} {operator : Operator}
    {first second : Expression} (ofLeft : Displays limits left first)
    (ofRight : Displays limits right second)
    (ordered : (OperatorTree.node left operator right).Ordered Operator.rank)
    (made : first.binary? operator second = .ok expression) :
    Displays limits (.node left operator right) expression := by
  obtain ⟨tokens, lexes, spells⟩ := ofLeft.spelled
  obtain ⟨more, alsoLexes, alsoSpells⟩ := ofRight.spelled
  have sign := (starts_blank.append (starts_operator operator)).append starts_blank
  have whole := (lexes.append_starts (.inl rfl) sign).append_lexes alsoLexes
  refine ⟨⟨_, ?_, spells.node operator alsoSpells⟩, ⟨ordered, fun operand member => ?_⟩, ?_⟩
  · rw [Expression.binary?_text made]
    simpa using whole
  · rw [OperatorTree.leaves_node] at member
    rcases List.mem_append.1 member with inside | inside
    · exact ofLeft.standard.inner operand inside
    · exact ofRight.standard.inner operand inside
  · rw [typedTree, ofLeft.typed, ofRight.typed]
    change (first.binary? operator second).mapError _ = _
    rw [made]
    rfl

/-- What stands in the place of a name is a single operand. -/
theorem enclosed (displays : Displays limits tree expression) :
    ∃ operand, Displays limits (.leaf operand) expression.enclosed := by
  cases expression with
  | binary left operation right => exact ⟨_, displays.group⟩
  | _ =>
      cases tree with
      | leaf operand => exact ⟨operand, displays⟩
      | node left operator right =>
          obtain ⟨_, _, -, -, made⟩ := typedTree_node displays.typed
          obtain ⟨_, _, _, -, -, -, same⟩ := Expression.binary?_eq_ok made
          cases same

end Displays

/-- In a displayed scope every bound expression has a displayed tree. -/
def Scope.Displayed (limits : Limits) (scope : Scope) : Prop :=
  ∀ binding ∈ scope.bindings, ∃ tree, Displays limits tree binding.2

section Display

variable {scope : Scope} {limits : Limits}

mutual

/-- Every operand has an operand without names for the same expression. -/
theorem Operand.exists_displays (displayed : scope.Displayed limits) (operand : Operand)
    (standard : operand.Standard) (written : operand.Written) {expression : Expression}
    (typed : operand.typed scope limits = .ok expression) :
    ∃ other, Displays limits (.leaf other) expression := by
  cases operand with
  | integer number =>
      cases typed
      cases written with
      | integer written =>
          exact ⟨_, .single (by simp) (lexes_integer written) (.integer number) rfl⟩
  | boolean truth =>
      cases typed
      have lexes : Lexes (toString truth).toList [.boolean truth] :=
        @lexes_literal (.boolean truth) trivial
      exact ⟨_, .single (by simp) lexes (.boolean truth) rfl⟩
  | symbol category =>
      cases typed
      cases written with
      | symbol written =>
          exact ⟨_, .single (by simp) (lexes_symbol written) (.symbol category) rfl⟩
  | dice pool =>
      obtain ⟨_, -, made⟩ := Except.bind_eq_ok typed
      cases made
      cases written with
      | dice written => exact ⟨_, .single (by simp) (lexes_pool written) (.dice pool) typed⟩
  | vector first others =>
      cases written with
      | vector written =>
          obtain ⟨head, rest, made, text, inside⟩ := exists_sorted_literal typed
          obtain ⟨tokens, lexes, spells⟩ := exists_lexes_literal fun component member =>
            written component (inside component member)
          rw [← text] at lexes
          exact ⟨_, .single (by simp) lexes spells made⟩
  | name bound =>
      obtain ⟨binding, member, rfl⟩ := Operand.typed_name typed
      obtain ⟨tree, displays⟩ := displayed binding member
      exact displays.enclosed
  | group tree =>
      cases standard with
      | single noGroup => exact absurd rfl (noGroup tree)
      | group ordered inner =>
          cases written with
          | group written =>
              obtain ⟨source, ofTree, made⟩ := Except.bind_eq_ok typed
              cases made
              obtain ⟨other, displays, -⟩ :=
                exists_displays_tree displayed tree ⟨ordered, inner⟩ written ofTree
              exact ⟨_, displays.group⟩

/-- Every standard tree has a tree without names for the same expression. -/
theorem exists_displays_tree (displayed : scope.Displayed limits) (tree : OperatorTree Operand)
    (standard : tree.Standard) (written : ∀ operand ∈ tree.leaves, operand.Written)
    {expression : Expression}
    (typed : typedTree scope limits tree = .ok expression) :
    ∃ other, Displays limits other expression ∧ other.root? = tree.root? := by
  cases tree with
  | leaf operand =>
      obtain ⟨other, displays⟩ := Operand.exists_displays displayed operand
        (standard.inner operand List.mem_cons_self) (written operand List.mem_cons_self) typed
      exact ⟨_, displays, rfl⟩
  | node left operator right =>
      rw [OperatorTree.leaves_node] at written
      obtain ⟨ofLeft, ofRight⟩ := List.forall_mem_append.1 written
      obtain ⟨first, second, leftTyped, rightTyped, made⟩ := typedTree_node typed
      obtain ⟨one, oneDisplays, oneRoot⟩ :=
        exists_displays_tree displayed left standard.left ofLeft leftTyped
      obtain ⟨other, otherDisplays, otherRoot⟩ :=
        exists_displays_tree displayed right standard.right ofRight rightTyped
      -- The roots decide whether the node is ordered, and they stay.
      have ordered : (OperatorTree.node one operator other).Ordered Operator.rank := by
        refine ⟨oneDisplays.standard.ordered, otherDisplays.standard.ordered, ?_, ?_⟩
        · rw [oneRoot]
          exact standard.ordered.2.2.1
        · rw [otherRoot]
          exact standard.ordered.2.2.2
      exact ⟨_, oneDisplays.node otherDisplays ordered made, rfl⟩

end

end Display

/-- An expression reparses when its text is read as a statement that makes it in the empty scope. -/
def Expression.Reparses (limits : Limits) (expression : Expression) : Prop :=
  ∃ condition, Statement.ofSource expression.text.toList = .ok (.expression condition) ∧
    condition.typed .empty limits = .ok expression

/-- Tokens that are read as a condition are no definition. -/
theorem Statement.read_of_read {tokens : List Token} {condition : Condition}
    (accepted : Reader.start.read tokens = .ok condition) :
    Statement.read tokens = .ok (.expression condition) := by
  unfold Statement.read
  split
  · cases accepted
  · rw [accepted]
    rfl

theorem Statement.ofSource_of_tokensOf {text : List Char} {tokens : List Token}
    {statement : Statement} (lexed : tokensOf text = tokens)
    (accepted : Statement.read tokens = .ok statement) :
    Statement.ofSource text = .ok statement := by
  have read : Statement.read ((lexemes text).map Lexeme.token) = .ok statement := by
    rw [← accepted, ← lexed]
    rfl
  rw [Statement.ofSource, read]
  rfl

/-- A displayed expression reparses. -/
theorem Displays.reparses {limits : Limits} {tree : OperatorTree Operand} {expression : Expression}
    (displays : Displays limits tree expression) : expression.Reparses limits := by
  obtain ⟨tokens, lexes, spells⟩ := displays.spelled
  obtain ⟨condition, accepted, rfl⟩ := Reader.read_of_spells spells displays.standard
  refine ⟨condition, ?_, ?_⟩
  · exact Statement.ofSource_of_tokensOf lexes.tokensOf (Statement.read_of_read accepted)
  · rw [Condition.typed_eq]
    exact displays.typed

end DiceOdds
