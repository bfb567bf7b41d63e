import DiceOdds.Proofs.Display
import DiceOdds.Proofs.Run

/-
This file shows that all expressions of a session stand for themselves: their texts can be run in a
new session with the same limits.
-/

namespace DiceOdds

namespace Session

/-- A displayed session has a displayed scope. -/
def Displayed (session : Session) : Prop :=
  session.scope.Displayed session.limits

theorem start_displayed (limits : Limits) : (start limits).Displayed := by
  intro binding member
  cases member

theorem exists_displays_answer {session : Session} (displayed : session.Displayed)
    {line : List Char} {answer : Answer} (answered : session.answer line = .ok answer) :
    ∃ tree, Displays session.limits tree answer.expression := by
  obtain ⟨statement, accepted, typed⟩ := answer_eq_ok answered
  obtain ⟨tokens, split, spells, standard⟩ := Statement.exists_spells_of_ofSource accepted
  have written : ∀ token ∈ tokens, token.Written := by
    intro token member
    apply tokensOf_written line token
    rw [tokensOf, split]
    exact List.mem_append_right _ member
  rw [Condition.typed_eq] at typed
  obtain ⟨tree, displays, -⟩ :=
    exists_displays_tree displayed _ standard (spells.written written) typed
  exact ⟨tree, displays⟩

/-- One line keeps a session displayed. -/
theorem run_displayed {session : Session} (displayed : session.Displayed) (line : List Char) :
    (session.run line).2.Displayed := by
  intro binding member
  rw [run_limits]
  rcases mem_bindings_run member with earlier | ⟨answer, answered, same⟩
  · exact displayed binding earlier
  · rw [← same]
    exact exists_displays_answer displayed answered

/-- All lines keep a session displayed, and every answer to them has a displayed tree. -/
theorem runAll_displayed {session : Session} (displayed : session.Displayed)
    (lines : List (List Char)) : ∀ outcome ∈ session.runAll lines,
      (∀ answer, outcome.1 = .ok answer → ∃ tree, Displays session.limits tree answer.expression) ∧
        outcome.2.Displayed ∧ outcome.2.limits = session.limits := by
  induction lines generalizing session with
  | nil => simp [runAll]
  | cons line rest known =>
      have next := run_displayed displayed line
      have limits := run_limits session line
      refine List.forall_mem_cons.2 ⟨⟨fun answer answered => ?_, next, limits⟩, ?_⟩
      · exact exists_displays_answer displayed answered
      · rw [← limits]
        exact known next

/-- Whatever lines are run, the text of every answered and of every bound expression is read as a
statement that makes the same expression, without the scope and with the same limits. -/
theorem runAll_reparses (limits : Limits) (lines : List (List Char)) :
    ∀ outcome ∈ (start limits).runAll lines,
      (∀ answer, outcome.1 = .ok answer → answer.expression.Reparses limits) ∧
        ∀ binding ∈ outcome.2.scope.bindings, binding.2.Reparses limits := by
  intro outcome member
  obtain ⟨answers, displayed, same⟩ :=
    runAll_displayed (start_displayed limits) lines outcome member
  refine ⟨fun answer answered => ?_, fun binding inside => ?_⟩
  · obtain ⟨tree, displays⟩ := answers answer answered
    exact displays.reparses
  · obtain ⟨tree, displays⟩ := displayed binding inside
    rw [same] at displays
    exact displays.reparses

/-- A product with a name for a sum has the sum in brackets, and its text reads as this product. -/
theorem runAll_reparses_product :
    let sum : Expression := .binary (.constant (.integer 1)) ⟨.add, .integer, .integer⟩
      (.constant (.integer 2))
    let product : Expression := .binary (.bracketed sum) ⟨.multiply, .integer, .integer⟩
      (.constant (.integer 3))
    ((start .standard).runAll [['$', 'n', ':', '=', '1', '+', '2'],
      ['$', 'm', ':', '=', '$', 'n', '*', '3']]).map Prod.fst =
        [.ok (.defined "n" sum), .ok (.defined "m" product)] ∧
      product.text = "(1 + 2) * 3" ∧ product.Reparses .standard := by
  intro sum product
  have ran : ((start .standard).runAll [['$', 'n', ':', '=', '1', '+', '2'],
      ['$', 'm', ':', '=', '$', 'n', '*', '3']]).map Prod.fst =
        [.ok (.defined "n" sum), .ok (.defined "m" product)] := by
    simp only [sum, product]
    cbv
  have answered : Except.ok (Answer.defined "m" product) ∈
      ((start .standard).runAll [['$', 'n', ':', '=', '1', '+', '2'],
        ['$', 'm', ':', '=', '$', 'n', '*', '3']]).map Prod.fst := by
    rw [ran]
    exact List.mem_cons_of_mem _ List.mem_cons_self
  obtain ⟨outcome, member, same⟩ := List.mem_map.1 answered
  have reparses := (runAll_reparses .standard _ outcome member).1 (.defined "m" product) same
  exact ⟨ran, rfl, reparses⟩

end Session

end DiceOdds
