import DiceOdds.Proofs.Agreement
import DiceOdds.Session

/-
This file opens the run of a line. A line binds nothing but the expression that it answers, so what
holds of every answer holds of everything that a session binds.
-/

namespace DiceOdds

namespace Session

/-- An answer has the expression of the statement on its line. -/
theorem answer_eq_ok {session : Session} {line : List Char} {answer : Answer}
    (answered : session.answer line = .ok answer) :
    ∃ statement, Statement.ofSource line = .ok statement ∧
      statement.condition.typed session.scope session.limits = .ok answer.expression := by
  obtain ⟨statement, read, answered⟩ := Except.bind_eq_ok answered
  obtain ⟨expression, typed, answered⟩ := Except.bind_eq_ok answered
  refine ⟨statement, Except.mapError_eq_ok read, ?_⟩
  cases statement with
  | expression condition =>
      obtain ⟨outcomes, -, answered⟩ := Except.bind_eq_ok answered
      cases answered
      exact typed
  | definition name condition =>
      cases answered
      exact typed

theorem run_limits (session : Session) (line : List Char) :
    (session.run line).2.limits = session.limits := by
  rw [run]
  cases session.answer line with
  | error failure => rfl
  | ok answer => cases answer <;> rfl

theorem mem_bindings_run {session : Session} {line : List Char} {binding : String × Expression}
    (member : binding ∈ (session.run line).2.scope.bindings) :
    binding ∈ session.scope.bindings ∨
      ∃ answer, session.answer line = .ok answer ∧ answer.expression = binding.2 := by
  rw [run] at member
  cases answered : session.answer line with
  | error failure =>
      rw [answered] at member
      exact .inl member
  | ok answer =>
      rw [answered] at member
      cases answer with
      | evaluated expression outcomes => exact .inl member
      | defined name expression =>
          rcases List.mem_cons.1 member with rfl | earlier
          · exact .inr ⟨_, rfl, rfl⟩
          · exact .inl earlier

/-- A reachable session comes from running lines in a new session with the limits. -/
inductive Reachable (limits : Limits) : Session → Prop where
  | start : Reachable limits (.start limits)
  | run {session : Session} (before : Reachable limits session) (line : List Char) :
      Reachable limits (session.run line).2

namespace Reachable

variable {limits : Limits} {session : Session}

theorem limits_eq (reachable : Reachable limits session) : session.limits = limits := by
  induction reachable with
  | start => rfl
  | run before line known => rw [run_limits, known]

/-- What every answer keeps when all bound expressions have it holds of all bound expressions. -/
theorem forall_bindings (reachable : Reachable limits session) (invariant : Expression → Prop)
    (kept : ∀ session : Session, session.limits = limits →
      (∀ binding ∈ session.scope.bindings, invariant binding.2) →
        ∀ line answer, session.answer line = .ok answer → invariant answer.expression) :
    ∀ binding ∈ session.scope.bindings, invariant binding.2 := by
  induction reachable with
  | start =>
      intro binding member
      cases member
  | @run session before line known =>
      intro binding member
      rcases mem_bindings_run member with earlier | ⟨answer, answered, same⟩
      · exact known binding earlier
      · rw [← same]
        exact kept session before.limits_eq known line answer answered

end Reachable

end Session

end DiceOdds
