import DiceOdds.Proofs.Literal

/-
This file gives types to trees of operands, in the same way as conditions get theirs. It also shows
that the operands of a text can be written again, and that two texts with an operator between them
spell the node of their trees.
-/

namespace DiceOdds

mutual

/-- This function gives a type to an operand. -/
def Operand.typed (scope : Scope) (limits : Limits) : Operand → Except Failure Expression
  | .integer number => .ok (.constant (.integer number))
  | .boolean truth => .ok (.constant (.boolean truth))
  | .symbol category => .ok (.constant (.symbol category))
  | .dice pool => poolLiteral limits pool
  | .vector first others => vectorLiteral (first :: others)
  | .name bound =>
      match scope.find? bound with
      | some expression => .ok expression.enclosed
      | none => .error (.undefinedName bound)
  | .group tree => do
      let inner ← typedTree scope limits tree
      return .bracketed inner

def typedTree (scope : Scope) (limits : Limits) :
    OperatorTree Operand → Except Failure Expression
  | .leaf operand => Operand.typed scope limits operand
  | .node left operator right => do
      let first ← typedTree scope limits left
      let second ← typedTree scope limits right
      (first.binary? operator second).mapError .calculation

end

mutual

theorem Atom.typed_eq (scope : Scope) (limits : Limits) (atom : Atom) :
    atom.typed scope limits = atom.forget.typed scope limits := by
  cases atom with
  | group condition => rw [Atom.typed, Atom.forget, Operand.typed, typedCondition_eq]
  | _ => rfl

theorem typedTerm_eq (scope : Scope) (limits : Limits) (term : OperatorTree Atom) :
    typedTerm scope limits term = typedTree scope limits (forgetTerm term) := by
  cases term with
  | leaf atom => exact Atom.typed_eq scope limits atom
  | node left operator right =>
      rw [typedTerm, forgetTerm, typedTree, typedTerm_eq scope limits left,
        typedTerm_eq scope limits right]

theorem typedCondition_eq (scope : Scope) (limits : Limits)
    (condition : OperatorTree (OperatorTree Atom)) :
    typedCondition scope limits condition = typedTree scope limits (forgetCondition condition) := by
  cases condition with
  | leaf term => exact typedTerm_eq scope limits term
  | node left operator right =>
      rw [typedCondition, forgetCondition, typedTree, typedCondition_eq scope limits left,
        typedCondition_eq scope limits right]

end

/-- The types of a condition do not depend on the difference of terms and conditions. -/
theorem Condition.typed_eq (scope : Scope) (limits : Limits) (condition : Condition) :
    condition.typed scope limits = typedTree scope limits condition.forget :=
  typedCondition_eq scope limits condition

theorem typedTree_node {scope : Scope} {limits : Limits} {left right : OperatorTree Operand}
    {operator : Operator} {expression : Expression}
    (typed : typedTree scope limits (.node left operator right) = .ok expression) :
    ∃ first second, typedTree scope limits left = .ok first ∧
      typedTree scope limits right = .ok second ∧
        first.binary? operator second = .ok expression := by
  rw [typedTree] at typed
  obtain ⟨first, ofLeft, typed⟩ := Except.bind_eq_ok typed
  obtain ⟨second, ofRight, typed⟩ := Except.bind_eq_ok typed
  exact ⟨first, second, ofLeft, ofRight, Except.mapError_eq_ok typed⟩

theorem Scope.exists_of_find? {scope : Scope} {bound : String} {expression : Expression}
    (found : scope.find? bound = some expression) :
    ∃ binding ∈ scope.bindings, binding.2 = expression := by
  rw [find?, List.lookup_eq_some_iff] at found
  obtain ⟨before, after, split, -⟩ := found
  exact ⟨(bound, expression), by simp [split], rfl⟩

/-- A typed name brings in a bound expression. -/
theorem Operand.typed_name {scope : Scope} {limits : Limits} {bound : String}
    {expression : Expression} (typed : Operand.typed scope limits (.name bound) = .ok expression) :
    ∃ binding ∈ scope.bindings, binding.2.enclosed = expression := by
  rw [Operand.typed] at typed
  cases found : scope.find? bound with
  | none => rw [found] at typed; cases typed
  | some source =>
      rw [found] at typed
      cases typed
      obtain ⟨binding, member, rfl⟩ := Scope.exists_of_find? found
      exact ⟨binding, member, rfl⟩

/-- A written operand has numbers and symbols that can be written again. -/
inductive Operand.Written : Operand → Prop where
  | integer {number : Int} (written : DiceOdds.Written number) : Written (.integer number)
  | boolean (truth : Bool) : Written (.boolean truth)
  | symbol {category : Symbol} (written : category.Written) : Written (.symbol category)
  | dice {pool : DicePool} (written : pool.Written) : Written (.dice pool)
  | vector {first : Symbol × Literal} {others : List (Symbol × Literal)}
      (written : ∀ component ∈ first :: others, IsWrittenComponent component) :
      Written (.vector first others)
  | name {bound : String} (written : IsName bound) : Written (.name bound)
  | group {tree : OperatorTree Operand} (inner : ∀ operand ∈ tree.leaves, Written operand) :
      Written (.group tree)

theorem SpellsComponent.written {tokens : List Token} {component : Symbol × Literal}
    (spells : SpellsComponent tokens component) (written : ∀ token ∈ tokens, token.Written) :
    IsWrittenComponent component := by
  cases spells with
  | separate dimension literal =>
      exact ⟨written (.symbol dimension) (by simp), written literal.token (by simp)⟩
  | marked dimension truth => exact ⟨written (.symbol dimension) (by simp), trivial⟩

theorem SpellsComponents.written {tokens : List Token} {components : List (Symbol × Literal)}
    (spells : SpellsComponents tokens components) (written : ∀ token ∈ tokens, token.Written) :
    ∀ component ∈ components, IsWrittenComponent component := by
  induction spells with
  | one spells =>
      intro component member
      obtain rfl := List.mem_singleton.1 member
      exact spells.written written
  | next before spells known =>
      obtain ⟨ofTokens, ofMore⟩ := List.forall_mem_append.1 written
      intro component member
      rcases List.mem_append.1 member with earlier | last
      · exact known ofTokens component earlier
      · obtain rfl := List.mem_singleton.1 last
        exact spells.written fun token inside => ofMore token (List.mem_cons_of_mem _ inside)

mutual

theorem SpellsOperand.written {tokens : List Token} {operand : Operand} :
    SpellsOperand tokens operand → (∀ token ∈ tokens, token.Written) → operand.Written
  | .integer number, written => .integer (written (.integer number) (by simp))
  | .boolean truth, _ => .boolean truth
  | .symbol category, written => .symbol (written (.symbol category) (by simp))
  | .dice pool, written => .dice (written (.dice pool) (by simp))
  | .name bound, written => .name (written (.name bound) (by simp))
  | .vector components, written =>
      .vector (components.written fun token inside => written token (by simp [inside]))
  | .group inner, written =>
      .group (inner.written fun token inside => written token (by simp [inside]))

/-- Written tokens spell written operands, inside of groups as well. -/
theorem SpellsSequence.written {tokens : List Token} {operand : Operand}
    {links : List (Operator × Operand)} : SpellsSequence tokens operand links →
      (∀ token ∈ tokens, token.Written) → ∀ other ∈ operand :: links.map Prod.snd, other.Written
  | .last spells, written => List.forall_mem_cons.2 ⟨spells.written written, by simp⟩
  | .next spells rest, written => by
      obtain ⟨ofTokens, ofMore⟩ := List.forall_mem_append.1 written
      refine List.forall_mem_cons.2 ⟨spells.written ofTokens, ?_⟩
      exact rest.written fun token inside => ofMore token (List.mem_cons_of_mem _ inside)

end

/-- Two sequences with an operator between them are one sequence. -/
theorem SpellsSequence.append {tokens more : List Token} {operand second : Operand}
    {links others : List (Operator × Operand)} (spells : SpellsSequence tokens operand links)
    (operator : Operator) (rest : SpellsSequence more second others) :
    SpellsSequence (tokens ++ .operator operator :: more) operand
      (links ++ (operator, second) :: others) := by
  induction links generalizing tokens operand with
  | nil =>
      cases spells with
      | last spells => exact .next spells rest
  | cons link links known =>
      cases spells with
      | next spells later =>
          rw [List.append_assoc, List.cons_append, List.cons_append]
          exact .next spells (known later)

theorem SpellsTree.node {tokens more : List Token} {left right : OperatorTree Operand}
    (ofLeft : SpellsTree tokens left) (operator : Operator) (ofRight : SpellsTree more right) :
    SpellsTree (tokens ++ .operator operator :: more) (.node left operator right) :=
  ofLeft.append operator ofRight

end DiceOdds
