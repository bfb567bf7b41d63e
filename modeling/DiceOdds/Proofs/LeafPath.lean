import DiceOdds.Proofs.Computation

/-
This file reads the leaves of a value at paths of names. A conversion moves no leaf, arithmetic acts
at every path on its own, and values of one type are equal when they have equal leaves.
-/

namespace DiceOdds

namespace ValueType

mutual

/-- These are the paths to the leaves of a type, in the order of the leaves. -/
def paths : ValueType → List (List String)
  | .integer | .boolean => [[]]
  | .symbol _ => []
  | .vector ⟨dimensions⟩ => dimensionPaths dimensions

def dimensionPaths : List (Symbol × ValueType) → List (List String)
  | [] => []
  | (dimension, type) :: rest => (paths type).map (dimension.name :: ·) ++ dimensionPaths rest

end

theorem dimensionPaths_eq_flatMap (dimensions : List (Symbol × ValueType)) :
    dimensionPaths dimensions =
      dimensions.flatMap fun dimension => dimension.2.paths.map (dimension.1.name :: ·) := by
  induction dimensions with
  | nil => rfl
  | cons dimension rest known => rw [dimensionPaths, known, List.flatMap_cons]

theorem paths_length (type : ValueType) : type.paths.length = type.leafCount := by
  induction type using induction with
  | integer | boolean | symbol => rfl
  | vector dimensions known =>
      rw [paths, dimensionPaths_eq_flatMap, leafCount, dimensionLeafCount_eq_sum,
        List.length_flatMap]
      congr 1
      apply List.map_congr_left
      intro dimension member
      rw [List.length_map, known dimension member]

/-- Equal types have the same paths. -/
theorem paths_congr {first : ValueType} :
    ∀ {second : ValueType}, first == second → first.paths = second.paths := by
  induction first using induction with
  | integer => exact fun same => (eq_integer_of_beq (BEq.symm same)) ▸ rfl
  | boolean => exact fun same => (eq_boolean_of_beq (BEq.symm same)) ▸ rfl
  | symbol category =>
      intro second same
      obtain ⟨other, rfl, -⟩ := eq_symbol_of_beq (BEq.symm same)
      rfl
  | vector dimensions known =>
      intro second same
      obtain ⟨⟨others⟩, rfl, agree⟩ := eq_vector_of_beq (BEq.symm same)
      have pairs := Space.beq_iff.1 (BEq.symm agree)
      change List.Forall₂ _ dimensions others at pairs
      simp only [paths]
      clear same agree
      induction pairs with
      | nil => rfl
      | cons agrees rest tail =>
          obtain ⟨head, later⟩ := List.forall_mem_cons.1 known
          rw [dimensionPaths, dimensionPaths, head agrees.2, tail later,
            Symbol.beq_iff.1 agrees.1]

end ValueType

namespace Value

/-- This is the leaf at a path. A symbol has the leaf of its unit vector, and a path that leads to no
leaf reads as zero. -/
def leafAt : Value → List String → Int
  | .integer number, [] => number
  | .boolean truth, [] => if truth then 1 else 0
  | .symbol category, path => if path = [category.name] then 1 else 0
  | .vector ⟨_, components⟩, name :: rest =>
      match components.lookup ⟨name, .tick⟩ with
      | some value => value.leafAt rest
      | none => 0
  | _, _ => 0

/-- The leaves of a value are those at the paths of its type. -/
theorem WellFormed.leaves_eq_map {value : Value} (formed : value.WellFormed) :
    value.leaves = value.type.paths.map value.leafAt := by
  induction formed with
  | integer | boolean | symbol => rfl
  | vector space components ofSpace ascending stored typed nonzero known =>
      obtain ⟨dimensions⟩ := space
      rw [type, ValueType.paths, ValueType.dimensionPaths_eq_flatMap, List.map_flatMap]
      simp only [leaves, componentLeaves_eq_map, Symbol.lookup_map_snd]
      apply List.flatMap_congr
      intro dimension member
      have named : components.lookup ⟨dimension.1.name, .tick⟩ = components.lookup dimension.1 :=
        Symbol.lookup_congr (Symbol.beq_iff.2 rfl : (⟨_, .tick⟩ : Symbol) == dimension.1) components
      rw [List.map_map]
      cases found : components.lookup dimension.1 with
      | none =>
          rw [found] at named
          symm
          simp [Function.comp_def, leafAt, named, ValueType.paths_length]
      | some value =>
          obtain ⟨key, inside, agrees⟩ := mem_of_lookup_dimension ofSpace typed member found
          rw [found] at named
          rw [ValueType.paths_congr agrees, Option.map_some, Option.getD_some, known _ inside]
          simp [Function.comp_def, leafAt, named]

/-- Apart from symbols, a value has no leaf that its type does not have. -/
theorem WellFormed.leafAt_eq_zero {value : Value} (formed : value.WellFormed)
    (notSymbol : value.tag ≠ .symbol) {path : List String} (absent : path ∉ value.type.paths) :
    value.leafAt path = 0 := by
  induction formed generalizing path with
  | integer | boolean =>
      cases path with
      | nil => exact absurd (List.mem_singleton.2 rfl) absent
      | cons name rest => rfl
  | symbol category => exact absurd rfl notSymbol
  | vector space components ofSpace ascending stored typed nonzero known =>
      obtain ⟨dimensions⟩ := space
      cases path with
      | nil => rfl
      | cons name rest =>
          rw [leafAt]
          split
          · next value found =>
              obtain ⟨key, inside, same⟩ := Symbol.mem_of_lookup found
              obtain ⟨own, present, agrees⟩ := typed _ inside
              obtain ⟨dimension, member, named⟩ := Symbol.mem_of_lookup present
              refine known _ inside ?_ fun reached => absent ?_
              · intro symbol
                have stays := nonzero _ inside
                cases value <;> cases symbol
                cases stays
              · rw [type, ValueType.paths, ValueType.dimensionPaths_eq_flatMap, List.mem_flatMap]
                refine ⟨_, member, List.mem_map.2 ⟨rest, ?_, ?_⟩⟩
                · rw [ValueType.paths_congr agrees]
                  exact reached
                · have names : name = dimension.name := Symbol.beq_iff.1 (BEq.trans same named)
                  rw [names]
          · rfl

/-- All paths that a type does not have lead to zeros, unless it is the type of a symbol. -/
theorem WellFormed.leafAt_outside {value : Value} {type : ValueType} (formed : value.WellFormed)
    (typed : value.type == type) (notSymbol : type.tag ≠ .symbol) {path : List String}
    (absent : path ∉ type.paths) : value.leafAt path = 0 := by
  refine formed.leafAt_eq_zero (fun symbol => notSymbol ?_) (ValueType.paths_congr typed ▸ absent)
  cases value <;> cases symbol
  obtain ⟨other, rfl, -⟩ := ValueType.eq_symbol_of_beq (BEq.symm typed)
  rfl

/-- Values of one type are equal when they have equal leaves. -/
theorem beq_of_leafAt {first second : Value} (ofFirst : first.WellFormed)
    (ofSecond : second.WellFormed) (types : first.type == second.type)
    (leaves : ∀ path ∈ second.type.paths, first.leafAt path = second.leafAt path) :
    first == second := by
  refine beq_iff.2 ⟨types, ?_⟩
  rw [ofFirst.leaves_eq_map, ofSecond.leaves_eq_map, ValueType.paths_congr types]
  exact List.map_congr_left leaves

/-- Equal values have equal leaves at every path. -/
theorem leafAt_congr {first second : Value} (ofFirst : first.WellFormed)
    (ofSecond : second.WellFormed) (same : first == second) (path : List String) :
    first.leafAt path = second.leafAt path := by
  obtain ⟨types, leaves⟩ := beq_iff.1 same
  by_cases symbol : second.tag = .symbol
  · cases second with
    | integer | boolean | vector => cases symbol
    | symbol category =>
        obtain ⟨other, rfl, agrees⟩ := eq_symbol_of_type types
        have names := Symbol.beq_iff.1 agrees
        cases path <;> simp only [leafAt, names]
  · rw [ofFirst.leaves_eq_map, ofSecond.leaves_eq_map, ValueType.paths_congr types] at leaves
    by_cases inside : path ∈ second.type.paths
    · exact List.map_inj_left.1 leaves path inside
    · rw [ofFirst.leafAt_outside types symbol inside, ofSecond.leafAt_eq_zero symbol inside]

theorem WellFormed.leafAt_representable {value : Value} (formed : value.WellFormed)
    (path : List String) : Representable (value.leafAt path) := by
  induction formed generalizing path with
  | integer number representable =>
      cases path with
      | nil => exact representable
      | cons name rest => exact (by decide : Representable 0)
  | boolean truth =>
      cases path with
      | nil => cases truth <;> decide
      | cons name rest => exact (by decide : Representable 0)
  | symbol category =>
      cases path <;> rw [leafAt] <;> split <;> decide
  | vector space components ofSpace ascending stored typed nonzero known =>
      cases path with
      | nil => exact (by decide : Representable 0)
      | cons name rest =>
          rw [leafAt]
          split
          · next value found =>
              obtain ⟨key, inside, -⟩ := Symbol.mem_of_lookup found
              exact known _ inside rest
          · decide

/-- The unit vector of a symbol has the leaf of the symbol. -/
theorem leafAt_unit (category : Symbol) (space : Space) (path : List String) :
    leafAt (.vector { SparseVector.unit category with space := space }) path =
      leafAt (.symbol category) path := by
  cases path with
  | nil => rfl
  | cons name rest =>
      simp only [SparseVector.unit, leafAt, List.lookup_cons, List.cons.injEq]
      cases same : (⟨name, .tick⟩ : Symbol) == category with
      | true =>
          obtain rfl : name = category.name := Symbol.beq_iff.1 same
          cases rest <;> simp [leafAt]
      | false =>
          have apart : name ≠ category.name := fun equal =>
            Bool.false_ne_true (same.symm.trans (Symbol.beq_iff.2 equal))
          simp [apart]

/-- A value has the same leaves in every type that it is read in. -/
theorem leafAt_readAs (value : Value) (target : ValueType) (path : List String) :
    (value.readAs target).leafAt path = value.leafAt path := by
  cases target with
  | integer | boolean | symbol => rw [readAs_of_tag_ne (by simp [ValueType.tag])]
  | vector space =>
      cases value with
      | integer | boolean => rfl
      | symbol category => exact leafAt_unit category space path
      | vector tally =>
          obtain ⟨own, components⟩ := tally
          cases path <;> rfl

/-- A conversion moves no leaf. -/
theorem leafAt_convert? {value image : Value} {target : ValueType}
    (converted : value.convert? target = .ok image) (path : List String) :
    image.leafAt path = value.leafAt path := by
  obtain ⟨-, rfl⟩ := convert?_eq_ok_iff.1 converted
  exact leafAt_readAs value target path

end Value

namespace Operator

/-- Arithmetic on a type acts on the leaves at its paths in turn. -/
theorem compute_agree_paths {operator : Operator} (arithmetic : operator.isArithmetic)
    {operand : ValueType} (supported : operator.supports operand) {left right : Value}
    (ofLeft : left.WellFormed) (ofRight : right.WellFormed) (typedLeft : left.type == operand)
    (typedRight : right.type == operand) :
    Agree Eq (fun result leaves => result.WellFormed ∧ result.type == operand ∧
        operand.paths.map result.leafAt = leaves)
      (operator.compute left right)
      (operand.paths.mapM fun path =>
        operator.integerResult (left.leafAt path) (right.leafAt path)) := by
  have types : (right.type == left.type) = true := BEq.trans typedRight (BEq.symm typedLeft)
  have acts := actsOnLeaves_of_supports arithmetic left.type
    (supports_congr operator typedLeft ▸ supported) left right ofLeft ofRight BEq.rfl types
  have results : operator.leafResults left.leaves right.leaves = operand.paths.mapM fun path =>
      operator.integerResult (left.leafAt path) (right.leafAt path) := by
    rw [leafResults, ofLeft.leaves_eq_map, ofRight.leaves_eq_map, ValueType.paths_congr types,
      ValueType.paths_congr typedLeft, List.zip_map', List.mapM_map]
    rfl
  rw [compute_arithmetic arithmetic, ← results]
  refine acts.imp (fun _ _ same => same) ?_
  rintro result leaves ⟨formed, typed, carried⟩
  refine ⟨formed, BEq.trans typed typedLeft, ?_⟩
  rw [← carried, formed.leaves_eq_map, ValueType.paths_congr (BEq.trans typed typedLeft)]

/-- Arithmetic acts on the leaves at every path, where two zeros have a zero for their result. -/
theorem leafAt_compute {operator : Operator} (arithmetic : operator.isArithmetic)
    (zeros : operator.integerResult 0 0 = .ok 0) {operand : ValueType}
    (supported : operator.supports operand) {left right result : Value} (ofLeft : left.WellFormed)
    (ofRight : right.WellFormed) (typedLeft : left.type == operand)
    (typedRight : right.type == operand) (computed : operator.compute left right = .ok result)
    (path : List String) :
    operator.integerResult (left.leafAt path) (right.leafAt path) = .ok (result.leafAt path) := by
  have agree := compute_agree_paths arithmetic supported ofLeft ofRight typedLeft typedRight
  rw [computed] at agree
  obtain ⟨leaves, ran, formed, typed, rfl⟩ := agree.symm.exists_of_ok
  by_cases inside : path ∈ operand.paths
  · rw [Except.mapM_eq_ok_iff, List.map_map] at ran
    exact List.map_inj_left.1 ran path inside
  · have notSymbol := tag_ne_symbol arithmetic supported
    rw [ofLeft.leafAt_outside typedLeft notSymbol inside,
      ofRight.leafAt_outside typedRight notSymbol inside, formed.leafAt_outside typed notSymbol inside]
    exact zeros

end Operator

end DiceOdds
