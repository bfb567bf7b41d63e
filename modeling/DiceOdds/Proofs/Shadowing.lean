import DiceOdds.Proofs.OperandTyping
import DiceOdds.Proofs.Run
import DiceOdds.Proofs.Substitution

/-
This file shows how much of a scope can be seen. The names and what each of them finds decide all
later answers, so that bindings behind newer ones and lines that define nothing leave no trace.
-/

namespace DiceOdds

namespace Scope

/-- These definitions build a scope, from the oldest to the newest. -/
def ofDefinitions (definitions : List (String × Expression)) : Scope :=
  definitions.foldl (fun scope definition => scope.define definition.1 definition.2) .empty

theorem ofDefinitions_bindings (definitions : List (String × Expression)) :
    (ofDefinitions definitions).bindings = definitions.reverse := by
  have onward (scope : Scope) : (definitions.foldl
      (fun scope definition => scope.define definition.1 definition.2) scope).bindings =
        definitions.reverse ++ scope.bindings := by
    induction definitions generalizing scope with
    | nil => rfl
    | cons definition rest known =>
        rw [List.foldl_cons, known, List.reverse_cons, List.append_assoc]
        rfl
  rw [ofDefinitions, onward]
  exact List.append_nil _

section Names

theorem mem_distinct {name : String} {names : List String} :
    name ∈ distinct names ↔ name ∈ names := by
  induction names with
  | nil => rfl
  | cons first rest known =>
      simp only [distinct, List.mem_cons, List.mem_filter, known, bne_iff_ne]
      tauto

theorem distinct_nodup (names : List String) : (distinct names).Nodup := by
  induction names with
  | nil => exact List.nodup_nil
  | cons first rest known =>
      refine List.nodup_cons.2 ⟨?_, known.filter _⟩
      simp

/-- A name stays where it occurs first, in front of all names that occur first after it. -/
theorem distinct_pairwise (names : List String) : (distinct names).Pairwise fun first second =>
    ∃ before after, names = before ++ first :: after ∧ second ∉ before := by
  induction names with
  | nil => exact List.Pairwise.nil
  | cons name rest known =>
      refine List.pairwise_cons.2 ⟨fun other _ => ⟨[], rest, rfl, by simp⟩, ?_⟩
      refine (known.filter _).imp_of_mem fun {first second} _ kept => ?_
      rintro ⟨before, after, rfl, absent⟩
      refine ⟨name :: before, after, rfl, ?_⟩
      have different : second ≠ name := by simpa using (List.mem_filter.1 kept).2
      simp [absent, different]

theorem names_define (scope : Scope) (name : String) (expression : Expression) :
    (scope.define name expression).names = name :: scope.names.filter (· != name) :=
  rfl

/-- A name is found when it is one of the names. -/
theorem isSome_find?_iff {scope : Scope} {name : String} :
    (scope.find? name).isSome ↔ name ∈ scope.names := by
  rw [names, mem_distinct, find?]
  induction scope.bindings with
  | nil => simp
  | cons binding rest known =>
      by_cases same : name = binding.1
      · simp [same]
      · rw [List.lookup_cons, beq_eq_false_iff_ne.2 same]
        simp [same, known]

/-- The latest definition of a name is the one that it finds. -/
theorem find?_ofDefinitions_iff {definitions : List (String × Expression)} {name : String}
    {expression : Expression} : (ofDefinitions definitions).find? name = some expression ↔
      ∃ before after, definitions = before ++ (name, expression) :: after ∧
        name ∉ after.map Prod.fst := by
  have apart (others : List (String × Expression)) :
      (∀ other ∈ others, name != other.1) ↔ name ∉ others.map Prod.fst := by
    simp only [bne_iff_ne, List.mem_map, not_exists, not_and]
    exact ⟨fun apart other member same => apart other member same.symm,
      fun apart other member same => apart other member same.symm⟩
  rw [find?, ofDefinitions_bindings, List.lookup_eq_some_iff]
  constructor
  · rintro ⟨newer, older, split, absent⟩
    refine ⟨older.reverse, newer.reverse, ?_, ?_⟩
    · rw [← List.reverse_reverse definitions, split]
      simp
    · rw [List.map_reverse, List.mem_reverse]
      exact (apart newer).1 absent
  · rintro ⟨before, after, rfl, absent⟩
    refine ⟨after.reverse, before.reverse, by simp, (apart _).2 ?_⟩
    rw [List.map_reverse, List.mem_reverse]
    exact absent

/-- Of two names, the one that was defined last comes first. -/
theorem names_ofDefinitions_pairwise (definitions : List (String × Expression)) :
    (ofDefinitions definitions).names.Pairwise fun newer older =>
      ∃ before expression after, definitions = before ++ (newer, expression) :: after ∧
        older ∉ after.map Prod.fst := by
  rw [names, ofDefinitions_bindings]
  refine (distinct_pairwise _).imp fun {newer older} => ?_
  rintro ⟨front, back, split, absent⟩
  obtain ⟨later, rest, reversed, rfl, more⟩ := List.map_eq_append_iff.1 split
  obtain ⟨⟨name, expression⟩, earlier, rfl, rfl, rfl⟩ := List.map_eq_cons_iff.1 more
  refine ⟨earlier.reverse, expression, later.reverse, ?_, ?_⟩
  · rw [← List.reverse_reverse definitions, reversed]
    simp
  · rw [List.map_reverse, List.mem_reverse]
    exact absent

end Names

/-- Two scopes agree when they have the same names and find the same expressions. -/
structure Agrees (first second : Scope) : Prop where
  names : first.names = second.names
  find? : ∀ name, first.find? name = second.find? name

namespace Agrees

variable {first second : Scope}

/-- Names that are not listed find nothing, so the listed ones decide. -/
theorem of_names (names : first.names = second.names)
    (listed : ∀ name ∈ first.names, first.find? name = second.find? name) :
    first.Agrees second := by
  refine ⟨names, fun name => ?_⟩
  by_cases member : name ∈ first.names
  · exact listed name member
  · have absent : name ∉ second.names := names ▸ member
    rw [← isSome_find?_iff, Option.not_isSome_iff_eq_none] at member absent
    rw [member, absent]

theorem define (agrees : first.Agrees second) (name : String) (expression : Expression) :
    (first.define name expression).Agrees (second.define name expression) := by
  refine ⟨?_, fun bound => ?_⟩
  · rw [names_define, names_define, agrees.names]
  · rw [find?_define, find?_define, agrees.find?]

end Agrees

end Scope

section Typing

variable {first second : Scope} {limits : Limits}

mutual

theorem Operand.typed_congr (agrees : first.Agrees second) (operand : Operand) :
    operand.typed first limits = operand.typed second limits := by
  cases operand with
  | name bound => rw [Operand.typed, Operand.typed, agrees.find?]
  | group tree => rw [Operand.typed, Operand.typed, typedTree_congr agrees tree]
  | _ => rfl

theorem typedTree_congr (agrees : first.Agrees second) (tree : OperatorTree Operand) :
    typedTree first limits tree = typedTree second limits tree := by
  cases tree with
  | leaf operand => exact Operand.typed_congr agrees operand
  | node left operator right =>
      rw [typedTree, typedTree, typedTree_congr agrees left, typedTree_congr agrees right]

end

/-- Types depend on a scope only through what its names find. -/
theorem Condition.typed_congr (agrees : first.Agrees second) (condition : Condition) :
    condition.typed first limits = condition.typed second limits := by
  rw [Condition.typed_eq, Condition.typed_eq, typedTree_congr agrees]

end Typing

namespace Session

/-- Two sessions agree when they have the same limits and scopes that agree. -/
structure Agrees (first second : Session) : Prop where
  scope : first.scope.Agrees second.scope
  limits : first.limits = second.limits

/-- This is what can be seen of an outcome: the answer, and the names after it. -/
def seen (outcome : Except Failure Answer × Session) : Except Failure Answer × List String :=
  (outcome.1, outcome.2.scope.names)

namespace Agrees

variable {first second : Session}

theorem answer_eq (agrees : first.Agrees second) (line : List Char) :
    first.answer line = second.answer line := by
  simp only [answer, agrees.limits, Condition.typed_congr agrees.scope]

theorem remember (agrees : first.Agrees second) (result : Except Failure Answer) :
    (first.remember result).Agrees (second.remember result) := by
  cases result with
  | error failure => exact agrees
  | ok answer =>
      cases answer with
      | evaluated expression outcomes => exact agrees
      | defined name expression => exact ⟨agrees.scope.define name expression, agrees.limits⟩

/-- One line gives sessions that agree the same answer, and they agree after it. -/
theorem run (agrees : first.Agrees second) (line : List Char) :
    (first.run line).1 = (second.run line).1 ∧ (first.run line).2.Agrees (second.run line).2 := by
  rw [Session.run, Session.run, agrees.answer_eq]
  exact ⟨rfl, agrees.remember _⟩

theorem runAll (agrees : first.Agrees second) (lines : List (List Char)) :
    (first.runAll lines).map seen = (second.runAll lines).map seen := by
  induction lines generalizing first second with
  | nil => rfl
  | cons line rest known =>
      obtain ⟨answers, after⟩ := agrees.run line
      rw [Session.runAll, Session.runAll, List.map_cons, List.map_cons, known after, seen, seen,
        answers, after.scope.names]

end Agrees

/-- Only a definition that is accepted defines something. -/
def defines : Except Failure Answer → Bool
  | .ok (.defined _ _) => true
  | _ => false

/-- This is the session after all lines. -/
def after (session : Session) (lines : List (List Char)) : Session :=
  lines.foldl (fun session line => (session.run line).2) session

/-- These are the lines that define something, each with its outcome. -/
def defining (session : Session) (lines : List (List Char)) :
    List (List Char × (Except Failure Answer × Session)) :=
  (lines.zip (session.runAll lines)).filter fun line => defines line.2.1

theorem run_eq_self {session : Session} {line : List Char}
    (without : defines (session.run line).1 = false) : (session.run line).2 = session := by
  rw [run] at without ⊢
  cases answered : session.answer line with
  | error failure => rfl
  | ok answer =>
      cases answer with
      | evaluated expression outcomes => rfl
      | defined name expression =>
          rw [answered] at without
          cases without

theorem defining_cons (session : Session) (line : List Char) (rest : List (List Char)) :
    session.defining (line :: rest) =
      if defines (session.run line).1 then
        (line, session.run line) :: (session.run line).2.defining rest
      else session.defining rest := by
  rw [defining, runAll, List.zip_cons_cons, List.filter_cons]
  by_cases kept : defines (session.run line).1
  · rw [if_pos kept, if_pos kept]
    rfl
  · rw [if_neg kept, if_neg kept, run_eq_self (Bool.not_eq_true _ ▸ kept)]
    rfl

/-- The lines that define something have the same outcomes without the others. -/
theorem runAll_defining (session : Session) (lines : List (List Char)) :
    session.runAll ((session.defining lines).map Prod.fst) =
      (session.defining lines).map Prod.snd := by
  induction lines generalizing session with
  | nil => rfl
  | cons line rest known =>
      rw [defining_cons]
      split
      · rw [List.map_cons, List.map_cons, runAll, known]
      · exact known session

/-- They also give the same session in the end. -/
theorem after_defining (session : Session) (lines : List (List Char)) :
    session.after ((session.defining lines).map Prod.fst) = session.after lines := by
  induction lines generalizing session with
  | nil => rfl
  | cons line rest known =>
      rw [defining_cons]
      split
      · exact known _
      · next without =>
          have same := run_eq_self (Bool.not_eq_true _ ▸ without)
          rw [known, after, after, List.foldl_cons, same]

/-- Nothing else of a scope can be seen. Lines that define nothing can be left out, and two scopes
with the same names that find the same expressions give the same outcomes and names from then on.
The names are listed once each, by their latest definitions, and those are what they find. -/
theorem shadowed_unobservable :
    (∀ (session : Session) (lines : List (List Char)),
      session.runAll ((session.defining lines).map Prod.fst) =
          (session.defining lines).map Prod.snd ∧
        session.after ((session.defining lines).map Prod.fst) = session.after lines) ∧
    (∀ first second : List (String × Expression),
      (Scope.ofDefinitions first).names = (Scope.ofDefinitions second).names →
      (∀ name ∈ (Scope.ofDefinitions first).names,
        (Scope.ofDefinitions first).find? name = (Scope.ofDefinitions second).find? name) →
      ∀ (limits : Limits) (lines : List (List Char)),
        (runAll ⟨.ofDefinitions first, limits⟩ lines).map seen =
          (runAll ⟨.ofDefinitions second, limits⟩ lines).map seen) ∧
    ∀ definitions : List (String × Expression), let scope := Scope.ofDefinitions definitions
      scope.names.Nodup ∧
      (scope.names.Pairwise fun newer older => ∃ before expression after,
        definitions = before ++ (newer, expression) :: after ∧ older ∉ after.map Prod.fst) ∧
      (∀ name expression,
        (scope.define name expression).names = name :: scope.names.filter (· != name)) ∧
      (∀ name, (scope.find? name).isSome ↔ name ∈ scope.names) ∧
      ∀ name expression, scope.find? name = some expression ↔ ∃ before after,
        definitions = before ++ (name, expression) :: after ∧ name ∉ after.map Prod.fst := by
  refine ⟨fun session lines => ⟨runAll_defining session lines, after_defining session lines⟩,
    fun first second names listed limits lines => ?_, fun definitions => ?_⟩
  · have scopes : Scope.Agrees (.ofDefinitions first) (.ofDefinitions second) :=
      .of_names names listed
    have agrees : Agrees ⟨.ofDefinitions first, limits⟩ ⟨.ofDefinitions second, limits⟩ :=
      ⟨scopes, rfl⟩
    exact agrees.runAll lines
  · exact ⟨Scope.distinct_nodup _, Scope.names_ofDefinitions_pairwise definitions,
      Scope.names_define _, fun _ => Scope.isSome_find?_iff,
      fun _ _ => Scope.find?_ofDefinitions_iff⟩

/-- An older definition of a name cannot be seen behind the newer one. -/
theorem shadowed_unobservable_older :
    let one : Expression := .constant (.integer 1)
    let two : Expression := .constant (.integer 2)
    let full := Scope.ofDefinitions [("x", one), ("y", two), ("x", two)]
    let short := Scope.ofDefinitions [("y", two), ("x", two)]
    let lines := [['$', 'x'], ['$', 'y', ':', '=', '$', 'z']]
    full.names = ["x", "y"] ∧ (runAll ⟨full, .standard⟩ lines).map seen =
      (runAll ⟨short, .standard⟩ lines).map seen := by
  intro one two full short lines
  have listed : ∀ name ∈ full.names, full.find? name = short.find? name := by
    intro name member
    change name ∈ ["x", "y"] at member
    rcases List.mem_pair.1 member with rfl | rfl <;> rfl
  exact ⟨rfl, shadowed_unobservable.2.1 [("x", one), ("y", two), ("x", two)]
    [("y", two), ("x", two)] rfl listed .standard lines⟩

end Session

end DiceOdds
