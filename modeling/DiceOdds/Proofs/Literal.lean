import DiceOdds.Proofs.Conversion
import DiceOdds.Proofs.Spelling
import DiceOdds.Proofs.Words
import DiceOdds.Statement.Typing

/-
This file shows that a vector literal means the same in every order of its components. The text of
its vector is the literal with its components in increasing order, and it is read as this literal.
-/

namespace DiceOdds

/-- No name is repeated when no two of the entries have the same name. -/
theorem repeatedDimension?_eq_none {seen names : List Symbol} :
    repeatedDimension? seen names = none ↔ (∀ name ∈ names, seen.contains name = false) ∧
      names.Pairwise fun first second => (first == second) = false := by
  induction names generalizing seen with
  | nil => simp [repeatedDimension?]
  | cons name rest known =>
      rw [repeatedDimension?, List.forall_mem_cons, List.pairwise_cons]
      cases inside : seen.contains name with
      | true => simp
      | false =>
          rw [if_neg Bool.false_ne_true, known]
          simp only [List.contains_cons, Bool.or_eq_false_iff, BEq.comm, forall_and, true_and]
          tauto

/-- This is the type that a component gives to its dimension. -/
def literalType (component : Symbol × Literal) : Symbol × ValueType :=
  (component.1, component.2.value.type)

def literalValue (component : Symbol × Literal) : Symbol × Value :=
  (component.1, component.2.value)

/-- This is the vector of components in increasing order. -/
def literalVector (components : List (Symbol × Literal)) : SparseVector :=
  ⟨⟨components.map literalType⟩,
    (components.map literalValue).filter fun component => !component.2.isZero⟩

section

variable {components : List (Symbol × Literal)}

theorem repeatedDimension?_iff_distinct :
    repeatedDimension? [] (components.map Prod.fst) = none ↔ Symbol.Distinct components := by
  rw [repeatedDimension?_eq_none, List.pairwise_map]
  simp [Symbol.Distinct]

theorem ascending_literalType (ascending : Symbol.Ascending components) :
    Symbol.Ascending (components.map literalType) :=
  List.pairwise_map.2 ascending

theorem ascending_literalValue (ascending : Symbol.Ascending components) :
    Symbol.Ascending (components.map literalValue) :=
  List.pairwise_map.2 ascending

/-- The space of a literal has the dimensions of the components in increasing order. -/
theorem ofDimensions?_literal (distinct : Symbol.Distinct components) :
    Space.ofDimensions? (components.map literalType) =
      .ok ⟨(Symbol.sorted components).map literalType⟩ := by
  have apart : Symbol.Distinct (components.map literalType) := List.pairwise_map.2 distinct
  obtain ⟨⟨dimensions⟩, made, ascending, same⟩ :=
    Space.extendAll?_of_distinct Space.empty_wellFormed.ascending apart
  have ordered := ascending_literalType (Symbol.ascending_sorted components)
  have equal := ascending.eq_of_perm ordered (same.trans (distinct.sorted_perm.map _).symm)
  rw [← equal]
  exact made

/-- The vector of a literal stores the components in increasing order, apart from zeros. -/
theorem ofComponents?_literal (distinct : Symbol.Distinct components) :
    SparseVector.ofComponents? ⟨(Symbol.sorted components).map literalType⟩
      (components.map literalValue) = .ok (literalVector (Symbol.sorted components)) := by
  have sorted := Symbol.ascending_sorted components
  have typed : ∀ component ∈ components.map literalValue, ∃ type,
      Space.find? ⟨(Symbol.sorted components).map literalType⟩ component.1 = some type ∧
        type == component.2.type := by
    intro value member
    obtain ⟨component, inside, rfl⟩ := List.mem_map.1 member
    have present := List.mem_map_of_mem (f := literalType)
      (distinct.sorted_perm.mem_iff.2 inside)
    exact ⟨_, Symbol.lookup_of_mem (ascending_literalType sorted) present BEq.rfl, BEq.rfl⟩
  have apart : Symbol.Distinct (components.map literalValue) := List.pairwise_map.2 distinct
  obtain ⟨stored, made, ascending, same⟩ := SparseVector.ofComponents?_of_distinct apart typed
  have values := (distinct.sorted_perm.map literalValue).filter fun component =>
    !component.2.isZero
  have kept := List.Pairwise.filter (fun component => !component.2.isZero)
    (ascending_literalValue sorted)
  rw [made, ascending.eq_of_perm kept (same.trans values.symm)]
  rfl

theorem vectorLiteral_of_distinct (distinct : Symbol.Distinct components) :
    vectorLiteral components =
      .ok (.constant (.vector (literalVector (Symbol.sorted components)))) := by
  have space := ofDimensions?_literal distinct
  have vector := ofComponents?_literal distinct
  rw [vectorLiteral, repeatedDimension?_iff_distinct.2 distinct]
  change (Except.mapError _ (Space.ofDimensions? ((components.map literalValue).map
    fun component => (component.1, component.2.type)) >>= fun space =>
      SparseVector.ofComponents? space (components.map literalValue)) >>= _) = _
  rw [List.map_map]
  change (Except.mapError _ (Space.ofDimensions? (components.map literalType) >>= _) >>= _) = _
  rw [space]
  change (Except.mapError _ (SparseVector.ofComponents? _ _) >>= _) = _
  rw [vector]
  rfl

/-- A literal that has a vector names each dimension once. -/
theorem distinct_of_vectorLiteral {expression : Expression}
    (made : vectorLiteral components = .ok expression) : Symbol.Distinct components := by
  apply repeatedDimension?_iff_distinct.1
  rw [vectorLiteral] at made
  cases found : repeatedDimension? [] (components.map Prod.fst) with
  | none => rfl
  | some dimension => rw [found] at made; cases made

/-- A literal without a vector names a dimension twice. -/
theorem vectorLiteral_eq_error {failure : Failure}
    (failed : vectorLiteral components = .error failure) :
    ∃ dimension, failure = .repeatedDimension dimension := by
  cases found : repeatedDimension? [] (components.map Prod.fst) with
  | none =>
      rw [vectorLiteral_of_distinct (repeatedDimension?_iff_distinct.1 found)] at failed
      cases failed
  | some dimension =>
      rw [vectorLiteral, found] at failed
      cases failed
      exact ⟨dimension, rfl⟩

theorem componentTexts_eq_map (values : List (Symbol × Value)) :
    Value.componentTexts values = values.map fun entry => (entry.1, entry.2.text) := by
  induction values with
  | nil => rfl
  | cons value rest known => rw [Value.componentTexts, known]; rfl

theorem Literal.value_text (literal : Literal) : literal.value.text = literal.text := by
  cases literal <;> rfl

/-- A literal that is not stored has the text of the zero of its type. -/
theorem Literal.zeroText_of_isZero {literal : Literal} (zero : literal.value.isZero = true) :
    literal.value.type.zeroText = literal.text := by
  cases literal with
  | integer number =>
      obtain rfl : number = 0 := by simpa [value, Value.isZero] using zero
      rfl
  | boolean truth =>
      obtain rfl : truth = false := by simpa [value, Value.isZero] using zero
      rfl

/-- The text of the vector of a literal is the literal with the same components. -/
theorem text_literalVector (ascending : Symbol.Ascending components) :
    (Value.vector (literalVector components)).text =
      bracedText (components.map componentText) := by
  have shown : ∀ component ∈ components,
      ((((components.map literalValue).filter fun other => !other.2.isZero).lookup
        component.1).map Value.text).getD component.2.value.type.zeroText =
          component.2.text := by
    intro component member
    have present := List.mem_map_of_mem (f := literalValue) member
    have same : component.1 == (literalValue component).1 := BEq.rfl
    rw [Symbol.lookup_filter (ascending_literalValue ascending) present same]
    cases zero : component.2.value.isZero with
    | true =>
        rw [if_neg (by simp [literalValue, zero])]
        exact component.2.zeroText_of_isZero zero
    | false =>
        rw [if_pos (by simp [literalValue, zero])]
        exact component.2.value_text
  simp only [literalVector, Value.text, componentTexts_eq_map, Symbol.lookup_map_snd,
    List.map_map]
  congr 1
  apply List.map_congr_left
  intro component member
  rw [Function.comp_apply, componentText, ← shown component member]
  rfl

/-- The components of a literal can be sorted without a change of its vector, and the text of the
vector shows them in this order. -/
theorem exists_sorted_literal {first : Symbol × Literal} {others : List (Symbol × Literal)}
    {expression : Expression} (made : vectorLiteral (first :: others) = .ok expression) :
    ∃ head rest, vectorLiteral (head :: rest) = .ok expression ∧
      expression.text = bracedText ((head :: rest).map componentText) ∧
        ∀ component ∈ head :: rest, component ∈ first :: others := by
  have distinct := distinct_of_vectorLiteral made
  have same := distinct.sorted_perm
  have ascending := Symbol.ascending_sorted (first :: others)
  rw [vectorLiteral_of_distinct distinct] at made
  cases made
  generalize Symbol.sorted (first :: others) = components at *
  cases components with
  | nil => cases same.length_eq
  | cons head rest =>
      refine ⟨head, rest, ?_, text_literalVector ascending, fun _ => same.mem_iff.1⟩
      have stays := ascending.distinct.sorted_perm
      rw [vectorLiteral_of_distinct ascending.distinct,
        (Symbol.ascending_sorted _).eq_of_perm ascending stays]

end

theorem lexes_literal {literal : Literal} (written : literal.token.Written) :
    Lexes literal.text.toList [literal.token] := by
  cases literal with
  | integer number => exact lexes_integer written
  | boolean truth =>
      refine (starts_plain ?_).lexes
      cases truth <;> simp [plainWords, Literal.text, Literal.token, toString]

/-- A component can be written again when its dimension and its literal can. -/
def IsWrittenComponent (component : Symbol × Literal) : Prop :=
  component.1.Written ∧ component.2.token.Written

theorem lexes_component {component : Symbol × Literal} (written : IsWrittenComponent component) :
    Lexes (componentText component).toList
      [.symbol component.1, .colon, component.2.token] := by
  have colon := (lexes_symbol written.1).append_starts (.inr (.inr (.inr (.inr rfl)))) starts_colon
  have whole := colon.append_lexes (lexes_literal written.2)
  simpa [componentText] using whole

/-- The text of components between commas spells these components. -/
theorem exists_lexes_components {components : List (Symbol × Literal)} (nonempty : components ≠ [])
    (written : ∀ component ∈ components, IsWrittenComponent component) :
    ∃ tokens, Lexes (", ".intercalate (components.map componentText)).toList tokens ∧
      SpellsComponents tokens components := by
  induction components using List.reverseRecOn with
  | nil => exact absurd rfl nonempty
  | append_singleton components last known =>
      have ofLast := lexes_component (written last (by simp))
      cases components with
      | nil =>
          refine ⟨_, ?_, .one (.separate last.1 last.2)⟩
          simpa using ofLast
      | cons first others =>
          obtain ⟨tokens, lexes, spells⟩ := known (List.cons_ne_nil _ _)
            fun component member => written component (List.mem_append_left _ member)
          have comma : Starts [','] [.comma] := starts_plain (by simp [plainWords])
          have before := lexes.append_starts (.inr (.inr (.inr (.inl rfl))))
            (comma.append starts_blank)
          refine ⟨_, ?_, spells.next (.separate last.1 last.2)⟩
          rw [List.map_append, String.intercalate_append_of_ne_nil (by simp) (by simp)]
          have whole := before.append_lexes ofLast
          simpa using whole

/-- The text of a vector spells its literal. -/
theorem exists_lexes_literal {first : Symbol × Literal} {others : List (Symbol × Literal)}
    (written : ∀ component ∈ first :: others, IsWrittenComponent component) :
    ∃ tokens, Lexes (bracedText ((first :: others).map componentText)).toList tokens ∧
      SpellsOperand tokens (.vector first others) := by
  obtain ⟨tokens, lexes, spells⟩ := exists_lexes_components (List.cons_ne_nil _ _) written
  have opened : Starts ['{'] [.leftBrace] := starts_plain (by simp [plainWords])
  have closed : Starts ['}'] [.rightBrace] := starts_plain (by simp [plainWords])
  have whole := opened.append (lexes.append_starts (.inr (.inr (.inl rfl))) closed)
  refine ⟨_, ?_, .vector spells⟩
  simpa [bracedText] using whole.lexes

end DiceOdds
