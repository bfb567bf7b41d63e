import DiceOdds.Fault
import Mathlib.Tactic

/-
This file compares computations that can fail, finds the first failure in a list, and opens runs over
a list. It also names the faults that calculations with well-typed operands can have.
-/

namespace DiceOdds

/-- A calculation can leave a domain, leave the range of integers or divide by zero. -/
inductive Fault.IsCalculation : Fault → Prop where
  | outsideDomain (number : PoolNumber) (found : Int) : IsCalculation (.outsideDomain number found)
  | overflow (operator : Operator) (left right : Int) : IsCalculation (.overflow operator left right)
  | divisionByZero (dividend : Int) : IsCalculation (.divisionByZero dividend)

/-- Two computations agree when both fail with related faults or both give related results. -/
inductive Agree {E F A B : Type} (faults : E → F → Prop) (results : A → B → Prop) :
    Except E A → Except F B → Prop where
  | error {first : E} {second : F} (related : faults first second) :
      Agree faults results (.error first) (.error second)
  | ok {first : A} {second : B} (related : results first second) :
      Agree faults results (.ok first) (.ok second)

namespace Agree

variable {E F A B C D : Type} {faults otherFaults : E → F → Prop} {results : A → B → Prop}
  {others : C → D → Prop} {left : Except E A} {right : Except F B}

/-- Related continuations of agreeing computations agree. -/
theorem bind (agree : Agree faults results left right) {first : A → Except E C}
    {second : B → Except F D}
    (next : ∀ one other, results one other → Agree faults others (first one) (second other)) :
    Agree faults others (left >>= first) (right >>= second) := by
  cases agree with
  | error related => exact .error related
  | ok related => exact next _ _ related

theorem imp {weaker : A → B → Prop} (agree : Agree faults results left right)
    (onFaults : ∀ one other, faults one other → otherFaults one other)
    (onResults : ∀ one other, results one other → weaker one other) :
    Agree otherFaults weaker left right := by
  cases agree with
  | error related => exact .error (onFaults _ _ related)
  | ok related => exact .ok (onResults _ _ related)

/-- Every computation agrees with itself when every result is related to itself. -/
theorem refl {same : A → A → Prop} (related : ∀ result, same result result)
    (computation : Except E A) : Agree Eq same computation computation := by
  cases computation with
  | error fault => exact .error rfl
  | ok result => exact .ok (related result)

/-- Renaming the faults keeps two computations in agreement. -/
theorem mapError {second : Except E B} (agree : Agree Eq results left second) (rename : E → F) :
    Agree Eq results (left.mapError rename) (second.mapError rename) := by
  cases agree with
  | error related => exact .error (congrArg rename related)
  | ok related => exact .ok related

theorem symm (agree : Agree faults results left right) :
    Agree (fun one other => faults other one) (fun one other => results other one) right left := by
  cases agree with
  | error related => exact .error related
  | ok related => exact .ok related

/-- A computation in between relates the faults and the results of two others. -/
theorem trans {G : Type} {furtherFaults : F → G → Prop} {further : B → C → Prop}
    {third : Except G C} (agree : Agree faults results left right)
    (after : Agree furtherFaults further right third) :
    Agree (fun one other => ∃ middle, faults one middle ∧ furtherFaults middle other)
      (fun one other => ∃ middle, results one middle ∧ further middle other) left third := by
  cases agree with
  | error related =>
      cases after with
      | error next => exact .error ⟨_, related, next⟩
  | ok related =>
      cases after with
      | ok next => exact .ok ⟨_, related, next⟩

theorem exists_iff (agree : Agree faults results left right) :
    (∃ one, left = .ok one) ↔ ∃ other, right = .ok other := by
  cases agree <;> simp

/-- Computations that agree on their faults have the same ones. -/
theorem eq_error_iff {second : Except E B} (agree : Agree Eq results left second) {fault : E} :
    left = .error fault ↔ second = .error fault := by
  cases agree with
  | error related => simp [related]
  | ok related => simp

/-- Two computations agree up to their faults when they succeed together with related results. -/
theorem of_exists_iff (together : (∃ one, left = .ok one) ↔ ∃ other, right = .ok other)
    (related : ∀ one other, left = .ok one → right = .ok other → results one other) :
    Agree (fun _ _ => True) results left right := by
  cases left with
  | error fault =>
      cases right with
      | error other => exact .error trivial
      | ok other =>
          obtain ⟨one, impossible⟩ := together.2 ⟨other, rfl⟩
          cases impossible
  | ok one =>
      cases right with
      | error fault =>
          obtain ⟨other, impossible⟩ := together.1 ⟨one, rfl⟩
          cases impossible
      | ok other => exact .ok (related one other rfl rfl)

theorem exists_of_ok {result : B} (agree : Agree faults results left (.ok result)) :
    ∃ first, left = .ok first ∧ results first result := by
  cases agree with
  | ok related => exact ⟨_, rfl, related⟩

theorem exists_of_error {fault : F} (agree : Agree faults results left (.error fault)) :
    ∃ first, left = .error first ∧ faults first fault := by
  cases agree with
  | error related => exact ⟨_, rfl, related⟩

end Agree

section

variable {A F : Type} {fails : A → F → Prop}

/-- The first failure in a list is that of a site with no failing site before it. -/
def IsFirst (fails : A → F → Prop) (sites : List A) (failure : F) : Prop :=
  ∃ before site after, sites = before ++ site :: after ∧
    (∀ earlier ∈ before, ∀ other, ¬fails earlier other) ∧ fails site failure

theorem isFirst_nil {failure : F} : ¬IsFirst fails [] failure := by
  rintro ⟨before, site, after, split, -⟩
  cases before <;> cases split

theorem isFirst_cons {site : A} {rest : List A} {failure : F} :
    IsFirst fails (site :: rest) failure ↔
      fails site failure ∨ (∀ other, ¬fails site other) ∧ IsFirst fails rest failure := by
  constructor
  · rintro ⟨before, found, after, split, clear, failed⟩
    cases before with
    | nil =>
        cases split
        exact .inl failed
    | cons earlier before =>
        cases split
        obtain ⟨head, later⟩ := List.forall_mem_cons.1 clear
        exact .inr ⟨head, before, found, after, rfl, later, failed⟩
  · rintro (failed | ⟨clear, before, found, after, rfl, later, failed⟩)
    · exact ⟨[], site, rest, rfl, by simp, failed⟩
    · exact ⟨site :: before, found, after, rfl, List.forall_mem_cons.2 ⟨clear, later⟩, failed⟩

/-- There is a first failure as soon as one site fails. -/
theorem exists_isFirst_iff {sites : List A} :
    (∃ failure, IsFirst fails sites failure) ↔ ∃ site ∈ sites, ∃ failure, fails site failure := by
  induction sites with
  | nil => simp [isFirst_nil]
  | cons site rest known =>
      simp only [isFirst_cons, exists_or, exists_and_left, known, List.exists_mem_cons_iff,
        ← not_exists]
      tauto

theorem isFirst_append {sites more : List A} {failure : F} :
    IsFirst fails (sites ++ more) failure ↔ IsFirst fails sites failure ∨
      (∀ other, ¬IsFirst fails sites other) ∧ IsFirst fails more failure := by
  induction sites with
  | nil => simp [isFirst_nil]
  | cons site rest known =>
      rw [List.cons_append, isFirst_cons, known]
      simp only [isFirst_cons, not_or, forall_and, not_and]
      tauto

/-- The first failure in a mapped list is that of the first site whose image fails. -/
theorem isFirst_map {B : Type} {image : B → A} {sites : List B} {failure : F} :
    IsFirst fails (sites.map image) failure ↔
      IsFirst (fun site => fails (image site)) sites failure := by
  induction sites with
  | nil => simp [isFirst_nil]
  | cons site rest known => rw [List.map_cons, isFirst_cons, isFirst_cons, known]

end

namespace Except

variable {E A B C : Type}

/-- A bind that succeeds has two parts that succeed. -/
theorem bind_eq_ok {first : Except E A} {next : A → Except E B} {result : B}
    (ran : first >>= next = .ok result) : ∃ value, first = .ok value ∧ next value = .ok result := by
  cases first with
  | error fault => cases ran
  | ok value => exact ⟨value, rfl, ran⟩

/-- A bind that fails has one part that fails. -/
theorem bind_eq_error {first : Except E A} {next : A → Except E B} {fault : E}
    (ran : first >>= next = .error fault) :
    first = .error fault ∨ ∃ value, first = .ok value ∧ next value = .error fault := by
  cases first with
  | error other =>
      cases ran
      exact .inl rfl
  | ok value => exact .inr ⟨value, rfl, ran⟩

/-- Of two parts that run one after the other, the second one decides only if the first one succeeds. -/
theorem bind_isFirst {F S : Type} {fails : S → F → Prop} {sites more : List S} {first : Except F A}
    {next : A → Except F B} (ofFirst : ∀ fault, first = .error fault ↔ IsFirst fails sites fault)
    (ofNext : ∀ value fault, next value = .error fault ↔ IsFirst fails more fault) (fault : F) :
    first >>= next = .error fault ↔ IsFirst fails (sites ++ more) fault := by
  rw [isFirst_append]
  simp only [← ofFirst]
  cases first with
  | error other => simp [bind, Except.bind]
  | ok value => simp [bind, Except.bind, ofNext]

/-- Renaming its faults does not change whether a computation succeeds. -/
theorem mapError_eq_ok {F : Type} {rename : E → F} {computation : Except E A} {result : A}
    (ran : computation.mapError rename = .ok result) : computation = .ok result := by
  cases computation with
  | error fault => cases ran
  | ok value =>
      cases ran
      rfl

theorem mapError_eq_error {F : Type} {rename : E → F} {computation : Except E A} {fault : F}
    (ran : computation.mapError rename = .error fault) :
    ∃ reason, computation = .error reason ∧ rename reason = fault := by
  cases computation with
  | error reason =>
      cases ran
      exact ⟨reason, rfl, rfl⟩
  | ok value => cases ran

/-- A run over a list succeeds when every step does, and then it has the results of the steps. -/
theorem mapM_eq_ok_iff {step : A → Except E B} {list : List A} {images : List B} :
    list.mapM step = .ok images ↔ list.map step = images.map .ok := by
  induction list generalizing images with
  | nil => cases images <;> simp [pure, Except.pure]
  | cons value rest known =>
      rw [List.mapM_cons, List.map_cons]
      cases first : step value with
      | error fault => cases images <;> simp [bind, Except.bind]
      | ok image =>
          cases images with
          | nil => cases later : rest.mapM step <;> simp [bind, Except.bind, pure, Except.pure]
          | cons other others =>
              rw [List.map_cons, List.cons.injEq, ← known]
              cases later : rest.mapM step <;> simp [bind, Except.bind, pure, Except.pure]

theorem exists_mapM_iff {step : A → Except E B} {list : List A} :
    (∃ images, list.mapM step = .ok images) ↔ ∀ value ∈ list, ∃ image, step value = .ok image := by
  induction list with
  | nil => simp [pure, Except.pure]
  | cons value rest known =>
      rw [List.forall_mem_cons, ← known, List.mapM_cons]
      cases step value <;> cases rest.mapM step <;> simp [bind, Except.bind, pure, Except.pure]

/-- Every result of a run is the result of one of its steps. -/
theorem exists_of_mem_mapM {step : A → Except E B} {list : List A} {images : List B}
    (ran : list.mapM step = .ok images) {image : B} (member : image ∈ images) :
    ∃ value ∈ list, step value = .ok image := by
  have present := List.mem_map_of_mem (f := Except.ok (ε := E)) member
  rw [← mapM_eq_ok_iff.1 ran] at present
  exact List.mem_map.1 present

/-- A run over a list fails with the first fault of its steps. -/
theorem mapM_eq_error_iff {step : A → Except E B} {list : List A} {fault : E} :
    list.mapM step = .error fault ↔
      IsFirst (fun value reason => step value = .error reason) list fault := by
  induction list with
  | nil => simp [isFirst_nil, pure, Except.pure]
  | cons value rest known =>
      rw [List.mapM_cons, isFirst_cons, ← known]
      cases step value with
      | error reason => simp [bind, Except.bind]
      | ok image => cases rest.mapM step <;> simp [bind, Except.bind, pure, Except.pure]

/-- The fault of a run is the fault of one of its steps. -/
theorem exists_of_mapM_eq_error {step : A → Except E B} {list : List A} {fault : E}
    (failed : list.mapM step = .error fault) : ∃ value ∈ list, step value = .error fault := by
  obtain ⟨before, value, after, rfl, -, stops⟩ := mapM_eq_error_iff.1 failed
  exact ⟨value, by simp, stops⟩

/-- Runs over related lists agree when their steps do. -/
theorem agree_mapM {F D : Type} {related : A → C → Prop} {faults : E → F → Prop}
    {results : B → D → Prop} {first : A → Except E B} {second : C → Except F D} {left : List A}
    {right : List C} (aligned : List.Forall₂ related left right)
    (steps : ∀ one other, related one other → Agree faults results (first one) (second other)) :
    Agree faults (List.Forall₂ results) (left.mapM first) (right.mapM second) := by
  induction aligned with
  | nil => exact .ok .nil
  | cons head _ known =>
      rw [List.mapM_cons, List.mapM_cons]
      refine (steps _ _ head).bind fun one other same => known.bind fun ones others rest => ?_
      exact .ok (.cons same rest)

/-- A fold that fails has run well over the values before the one at which it fails. -/
theorem foldlM_eq_error {step : B → A → Except E B} {list : List A} {start : B} {fault : E}
    (failed : list.foldlM step start = .error fault) :
    ∃ before value after state, list = before ++ value :: after ∧
      before.foldlM step start = .ok state ∧ step state value = .error fault := by
  induction list generalizing start with
  | nil => cases failed
  | cons value rest known =>
      rw [List.foldlM_cons] at failed
      rcases bind_eq_error failed with stops | ⟨next, first, later⟩
      · exact ⟨[], value, rest, start, rfl, rfl, stops⟩
      · obtain ⟨before, stopping, after, state, rfl, ran, stops⟩ := known later
        refine ⟨value :: before, stopping, after, state, rfl, ?_, stops⟩
        rw [List.foldlM_cons, first]
        exact ran

end Except

end DiceOdds
