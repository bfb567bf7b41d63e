import DiceOdds.Proofs.Conversion
import DiceOdds.Proofs.Order

/-
This file takes the marks away from symbols and from all that holds symbols. Building, comparing and
converting types and values commutes with that, so their marks have no influence.
-/

namespace DiceOdds

/-- Whatever holds symbols can also be had without their marks. -/
class Marked (A : Type) where
  unmark : A → A

open Marked (unmark)

section Containers

variable {A B E : Type} [Marked A] [Marked B] [Marked E]

instance : Marked Unit :=
  ⟨id⟩

instance : Marked Int :=
  ⟨id⟩

instance : Marked (A × B) :=
  ⟨Prod.map unmark unmark⟩

instance : Marked (List A) :=
  ⟨List.map unmark⟩

instance : Marked (Option A) :=
  ⟨Option.map unmark⟩

/-- Faults lose their marks as results do. -/
instance : Marked (Except E A) where
  unmark
    | .error fault => .error (unmark fault)
    | .ok result => .ok (unmark result)

@[simp] theorem unmark_pair (first : A) (second : B) :
    unmark (first, second) = (unmark first, unmark second) :=
  rfl

theorem unmark_eq (pair : A × B) : unmark pair = (unmark pair.1, unmark pair.2) :=
  rfl

@[simp] theorem unmark_cons (first : A) (rest : List A) :
    unmark (first :: rest) = unmark first :: unmark rest :=
  rfl

@[simp] theorem unmark_none : unmark (none : Option A) = none :=
  rfl

@[simp] theorem unmark_some (value : A) : unmark (some value) = some (unmark value) :=
  rfl

/-- A computation loses its marks when both of its parts do. -/
theorem bind_unmark {computation : Except E A} {next other : A → Except E B}
    (commutes : ∀ result, other (unmark result) = unmark (next result)) :
    unmark computation >>= other = unmark (computation >>= next) := by
  cases computation with
  | error fault => rfl
  | ok result => exact commutes result

theorem foldlM_unmark {step : B → A → Except E B}
    (commutes : ∀ state value, step (unmark state) (unmark value) = unmark (step state value))
    (state : B) (list : List A) :
    (unmark list).foldlM step (unmark state) = unmark (list.foldlM step state) := by
  induction list generalizing state with
  | nil => rfl
  | cons value rest known =>
      rw [unmark_cons, List.foldlM_cons, List.foldlM_cons, commutes]
      exact bind_unmark known

theorem mapM_unmark {step other : A → Except E B}
    (commutes : ∀ value, other (unmark value) = unmark (step value)) (list : List A) :
    (unmark list).mapM other = unmark (list.mapM step) := by
  induction list with
  | nil => rfl
  | cons value rest known =>
      rw [unmark_cons, List.mapM_cons, List.mapM_cons, commutes, known]
      exact bind_unmark fun first => bind_unmark fun later => rfl

end Containers

namespace Symbol

variable {A : Type} [Marked A]

/-- Every symbol is then written with a tick. -/
instance : Marked Symbol :=
  ⟨fun symbol => ⟨symbol.name, .tick⟩⟩

@[simp] theorem compare_unmark (first second : Symbol) :
    compare (unmark first) (unmark second) = compare first second :=
  rfl

@[simp] theorem beq_unmark (first second : Symbol) :
    (unmark first == unmark second) = (first == second) :=
  rfl

@[simp] theorem lookup_unmark (symbol : Symbol) (entries : List (Symbol × A)) :
    (unmark entries).lookup (unmark symbol) = unmark (entries.lookup symbol) := by
  induction entries with
  | nil => rfl
  | cons entry rest known =>
      rw [unmark_cons, List.lookup_cons, List.lookup_cons]
      change (match symbol == entry.1 with
        | true => _
        | false => _) = _
      cases symbol == entry.1 with
      | true => rfl
      | false => exact known

/-- The key that survives a second entry is the same one up to its mark. -/
@[simp] theorem put_unmark (symbol : Symbol) (value : A) (entries : List (Symbol × A)) :
    (unmark symbol).put (unmark value) (unmark entries) = unmark (symbol.put value entries) := by
  induction entries with
  | nil => rfl
  | cons entry rest known =>
      obtain ⟨key, old⟩ := entry
      rw [unmark_cons, unmark_pair, put, put, compare_unmark]
      cases compare symbol key with
      | lt => rfl
      | eq => rfl
      | gt => exact congrArg _ known

@[simp] theorem drop_unmark (symbol : Symbol) (entries : List (Symbol × A)) :
    (unmark symbol).drop (unmark entries) = unmark (symbol.drop entries) :=
  List.filter_map

end Symbol

namespace ValueType

mutual

def unmarked : ValueType → ValueType
  | .integer => .integer
  | .boolean => .boolean
  | .symbol category => .symbol (unmark category)
  | .vector ⟨dimensions⟩ => .vector ⟨unmarkedDimensions dimensions⟩

def unmarkedDimensions : List (Symbol × ValueType) → List (Symbol × ValueType)
  | [] => []
  | (dimension, type) :: rest => (unmark dimension, unmarked type) :: unmarkedDimensions rest

end

instance : Marked ValueType :=
  ⟨unmarked⟩

end ValueType

instance : Marked Space :=
  ⟨fun space => ⟨unmark space.dimensions⟩⟩

namespace ValueType

theorem unmarkedDimensions_eq (dimensions : List (Symbol × ValueType)) :
    unmarkedDimensions dimensions = unmark dimensions := by
  induction dimensions with
  | nil => rfl
  | cons dimension rest known => rw [unmarkedDimensions, known]; rfl

@[simp] theorem unmark_integer : unmark ValueType.integer = .integer :=
  rfl

@[simp] theorem unmark_boolean : unmark ValueType.boolean = .boolean :=
  rfl

@[simp] theorem unmark_symbol (category : Symbol) :
    unmark (ValueType.symbol category) = .symbol (unmark category) :=
  rfl

@[simp] theorem unmark_vector (space : Space) :
    unmark (ValueType.vector space) = .vector (unmark space) := by
  obtain ⟨dimensions⟩ := space
  change ValueType.vector ⟨unmarkedDimensions dimensions⟩ = _
  rw [unmarkedDimensions_eq]
  rfl

theorem dimensionsCode_unmark {dimensions : List (Symbol × ValueType)}
    (inner : ∀ dimension ∈ dimensions, (unmark dimension.2).code = dimension.2.code) :
    dimensionsCode (unmark dimensions) = dimensionsCode dimensions := by
  induction dimensions with
  | nil => rfl
  | cons dimension rest known =>
      obtain ⟨first, later⟩ := List.forall_mem_cons.1 inner
      rw [dimensionsCode, ← first, ← known later]
      rfl

/-- Codes are spelled without marks. -/
@[simp] theorem code_unmark (type : ValueType) : (unmark type).code = type.code := by
  induction type using ValueType.induction with
  | vector dimensions known =>
      rw [unmark_vector]
      exact congrArg ("3" :: ·) (dimensionsCode_unmark known)
  | _ => rfl

@[simp] theorem compare_unmark (first second : ValueType) :
    compare (unmark first) (unmark second) = compare first second := by
  change order _ _ = order _ _
  simp only [order_eq_compare, code_unmark]

@[simp] theorem beq_unmark (first second : ValueType) :
    (unmark first == unmark second) = (first == second) :=
  congrArg (· == Ordering.eq) (compare_unmark first second)

theorem dimensionLeafCount_unmark {dimensions : List (Symbol × ValueType)}
    (inner : ∀ dimension ∈ dimensions, (unmark dimension.2).leafCount = dimension.2.leafCount) :
    dimensionLeafCount (unmark dimensions) = dimensionLeafCount dimensions := by
  induction dimensions with
  | nil => rfl
  | cons dimension rest known =>
      obtain ⟨first, later⟩ := List.forall_mem_cons.1 inner
      rw [dimensionLeafCount, ← first, ← known later]
      rfl

@[simp] theorem leafCount_unmark (type : ValueType) :
    (unmark type).leafCount = type.leafCount := by
  induction type using ValueType.induction with
  | vector dimensions known =>
      rw [unmark_vector]
      exact dimensionLeafCount_unmark known
  | _ => rfl

end ValueType

namespace Fault

/-- Only the symbols and types that a fault quotes have marks. -/
instance : Marked Fault where
  unmark
    | .outsideDomain number found => .outsideDomain number found
    | .conflictingDimension dimension first second =>
        .conflictingDimension (unmark dimension) (unmark first) (unmark second)
    | .undefinedOperator operator left right =>
        .undefinedOperator operator (unmark left) (unmark right)
    | .noConversion source target => .noConversion (unmark source) (unmark target)
    | .unknownDimension dimension space => .unknownDimension (unmark dimension) (unmark space)
    | .nothingToFold fold => .nothingToFold fold
    | .divisionByZero dividend => .divisionByZero dividend
    | .overflow operator left right => .overflow operator left right
    | .mismatchedOperands operator left right =>
        .mismatchedOperands operator (unmark left) (unmark right)

end Fault

namespace Space

@[simp] theorem dimensions_unmark (space : Space) :
    (unmark space).dimensions = unmark space.dimensions :=
  rfl

@[simp] theorem beq_unmark (first second : Space) :
    (unmark first == unmark second) = (first == second) := by
  simp only [← ValueType.vector_beq, ← ValueType.unmark_vector, ValueType.beq_unmark]

@[simp] theorem find?_unmark (space : Space) (dimension : Symbol) :
    (unmark space).find? (unmark dimension) = unmark (space.find? dimension) :=
  Symbol.lookup_unmark dimension space.dimensions

@[simp] theorem covers_unmark (wide narrow : Space) :
    (unmark wide).covers (unmark narrow) = wide.covers narrow := by
  rw [covers, covers, dimensions_unmark]
  induction narrow.dimensions with
  | nil => rfl
  | cons dimension rest known =>
      rw [unmark_cons, List.all_cons, List.all_cons, known, unmark_eq dimension, find?_unmark]
      cases wide.find? dimension.1 with
      | none => rfl
      | some type => rw [unmark_some]; simp

/-- Which of two equal dimensions is kept does not depend on their marks. -/
theorem extend?_unmark (space : Space) (dimension : Symbol) (type : ValueType) :
    (unmark space).extend? (unmark dimension) (unmark type) =
      unmark (space.extend? dimension type) := by
  rw [extend?, extend?, find?_unmark]
  cases space.find? dimension with
  | none => simp only [unmark_none, dimensions_unmark, Symbol.put_unmark]; rfl
  | some present =>
      simp only [unmark_some, ValueType.beq_unmark]
      split <;> rfl

theorem extendAll?_unmark (space : Space) (dimensions : List (Symbol × ValueType)) :
    (unmark space).extendAll? (unmark dimensions) = unmark (space.extendAll? dimensions) :=
  foldlM_unmark (fun space dimension => extend?_unmark space dimension.1 dimension.2) _ _

theorem ofDimensions?_unmark (dimensions : List (Symbol × ValueType)) :
    ofDimensions? (unmark dimensions) = unmark (ofDimensions? dimensions) :=
  extendAll?_unmark empty dimensions

theorem join?_unmark (first second : Space) :
    (unmark first).join? (unmark second) = unmark (first.join? second) :=
  extendAll?_unmark first second.dimensions

theorem joinAll?_unmark (spaces : List Space) :
    joinAll? (unmark spaces) = unmark (joinAll? spaces) := by
  cases spaces with
  | nil => rfl
  | cons first rest => exact foldlM_unmark join?_unmark first rest

end Space

namespace Value

mutual

def unmarked : Value → Value
  | .integer number => .integer number
  | .boolean truth => .boolean truth
  | .symbol category => .symbol (unmark category)
  | .vector ⟨space, components⟩ => .vector ⟨unmark space, unmarkedComponents components⟩

def unmarkedComponents : List (Symbol × Value) → List (Symbol × Value)
  | [] => []
  | (dimension, value) :: rest => (unmark dimension, unmarked value) :: unmarkedComponents rest

end

instance : Marked Value :=
  ⟨unmarked⟩

end Value

instance : Marked SparseVector :=
  ⟨fun vector => ⟨unmark vector.space, unmark vector.components⟩⟩

namespace Value

theorem unmarkedComponents_eq (components : List (Symbol × Value)) :
    unmarkedComponents components = unmark components := by
  induction components with
  | nil => rfl
  | cons component rest known => rw [unmarkedComponents, known]; rfl

@[simp] theorem unmark_integer (number : Int) : unmark (Value.integer number) = .integer number :=
  rfl

@[simp] theorem unmark_boolean (truth : Bool) : unmark (Value.boolean truth) = .boolean truth :=
  rfl

@[simp] theorem unmark_symbol (category : Symbol) :
    unmark (Value.symbol category) = .symbol (unmark category) :=
  rfl

@[simp] theorem unmark_vector (vector : SparseVector) :
    unmark (Value.vector vector) = .vector (unmark vector) := by
  obtain ⟨space, components⟩ := vector
  change Value.vector ⟨unmark space, unmarkedComponents components⟩ = _
  rw [unmarkedComponents_eq]
  rfl

@[simp] theorem type_unmark (value : Value) : (unmark value).type = unmark value.type := by
  cases value with
  | vector vector => rw [unmark_vector, type, type, ValueType.unmark_vector]; rfl
  | _ => rfl

@[simp] theorem isZero_unmark (value : Value) : (unmark value).isZero = value.isZero := by
  cases value with
  | vector vector =>
      rw [unmark_vector]
      exact List.isEmpty_map
  | _ => rfl

end Value

@[simp] theorem ValueType.zero_unmark (type : ValueType) :
    (unmark type).zero = unmark type.zero := by
  cases type with
  | vector space =>
      rw [ValueType.unmark_vector, ValueType.zero, ValueType.zero, Value.unmark_vector]
      rfl
  | _ => rfl

namespace SparseVector

@[simp] theorem space_unmark (vector : SparseVector) :
    (unmark vector).space = unmark vector.space :=
  rfl

@[simp] theorem components_unmark (vector : SparseVector) :
    (unmark vector).components = unmark vector.components :=
  rfl

theorem set?_unmark (vector : SparseVector) (dimension : Symbol) (value : Value) :
    (unmark vector).set? (unmark dimension) (unmark value) =
      unmark (vector.set? dimension value) := by
  rw [set?, set?, space_unmark, Space.find?_unmark]
  cases vector.space.find? dimension with
  | none => rfl
  | some type =>
      simp only [unmark_some, Value.type_unmark, ValueType.beq_unmark, Value.isZero_unmark,
        components_unmark, Symbol.drop_unmark, Symbol.put_unmark]
      split
      · split <;> rfl
      · rfl

theorem ofComponents?_unmark (space : Space) (components : List (Symbol × Value)) :
    ofComponents? (unmark space) (unmark components) = unmark (ofComponents? space components) :=
  foldlM_unmark (fun vector component => set?_unmark vector component.1 component.2)
    (zero space) components

@[simp] theorem reading_unmark (vector : SparseVector) :
    (unmark vector).reading = unmark vector.reading := by
  rw [reading, reading, space_unmark, Space.dimensions_unmark]
  induction vector.space.dimensions with
  | nil => rfl
  | cons dimension rest known =>
      rw [unmark_cons, List.map_cons, List.map_cons, known, unmark_eq dimension,
        components_unmark, Symbol.lookup_unmark, ValueType.zero_unmark]
      cases vector.components.lookup dimension.1 <;> rfl

theorem embed?_unmark (vector : SparseVector) (target : Space) :
    (unmark vector).embed? (unmark target) = unmark (vector.embed? target) := by
  rw [embed?, embed?, space_unmark, Space.covers_unmark]
  split
  · rfl
  · rw [← ValueType.unmark_vector, ← ValueType.unmark_vector]
    rfl

end SparseVector

namespace Value

@[simp] theorem unmark_integers (numbers : List Int) : unmark numbers = numbers :=
  List.map_id numbers

mutual

/-- The leaves of a value stand in the order of its dimensions, whatever their marks. -/
@[simp] theorem leaves_unmark (value : Value) : (unmark value).leaves = value.leaves := by
  match value with
  | .integer _ | .boolean _ | .symbol _ => rfl
  | .vector ⟨⟨dimensions⟩, components⟩ =>
      rw [unmark_vector]
      change ((unmark dimensions).flatMap fun dimension =>
        ((componentLeaves (unmark components)).lookup dimension.1).getD
          (List.replicate dimension.2.leafCount 0)) = _
      rw [componentLeaves_unmark components, leaves]
      refine (List.flatMap_map _ _ _).trans (List.flatMap_congr fun dimension _ => ?_)
      rw [unmark_eq dimension, Symbol.lookup_unmark, ValueType.leafCount_unmark]
      cases (componentLeaves components).lookup dimension.1 with
      | none => rfl
      | some leaves => exact unmark_integers leaves

theorem componentLeaves_unmark (components : List (Symbol × Value)) :
    componentLeaves (unmark components) = unmark (componentLeaves components) := by
  match components with
  | [] => rfl
  | (dimension, value) :: rest =>
      rw [unmark_cons, unmark_pair, componentLeaves, componentLeaves, leaves_unmark value,
        componentLeaves_unmark rest, unmark_cons, unmark_pair, unmark_integers]

end

@[simp] theorem compare_unmark (first second : Value) :
    compare (unmark first) (unmark second) = compare first second := by
  change order _ _ = order _ _
  simp only [order, type_unmark, ValueType.compare_unmark, leaves_unmark]

@[simp] theorem beq_unmark (first second : Value) :
    (unmark first == unmark second) = (first == second) :=
  congrArg (· == Ordering.eq) (compare_unmark first second)

end Value

namespace ValueType

@[simp] theorem convertsTo_unmark (source target : ValueType) :
    (unmark source).convertsTo (unmark target) = source.convertsTo target := by
  cases source with
  | symbol category =>
      cases target with
      | vector space =>
          rw [unmark_vector, unmark_symbol, convertsTo, convertsTo, Space.find?_unmark]
          cases space.find? category with
          | none => rfl
          | some type =>
              cases type with
              | vector inner => rw [unmark_some, unmark_vector]
              | _ => rfl
      | _ => rfl
  | vector space =>
      cases target with
      | vector other => simp only [unmark_vector, convertsTo, Space.covers_unmark]
      | _ => rw [unmark_vector]; rfl
  | _ =>
      cases target with
      | vector other => rw [unmark_vector]; rfl
      | _ => rfl

theorem checkConversion_unmark (source target : ValueType) :
    (unmark source).checkConversion (unmark target) = unmark (source.checkConversion target) := by
  rw [checkConversion, checkConversion, convertsTo_unmark]
  split <;> rfl

theorem common?_unmark (first second : ValueType) :
    (unmark first).common? (unmark second) = unmark (first.common? second) := by
  have joins (left right : Space) : ((unmark left).join? (unmark right)).toOption.map vector =
      unmark ((left.join? right).toOption.map vector) := by
    rw [Space.join?_unmark]
    cases left.join? right with
    | error fault => rfl
    | ok space => exact congrArg some (unmark_vector space).symm
  -- Symbols and vectors live in a space; all others have a common type with themselves only.
  rcases first with _ | _ | category | space <;> rcases second with _ | _ | other | wide
  case symbol.symbol => exact joins (.unit category) (.unit other)
  case symbol.vector =>
    rw [unmark_vector]
    exact joins (.unit category) wide
  case vector.symbol =>
    rw [unmark_vector]
    exact joins space (.unit other)
  case vector.vector =>
    rw [unmark_vector, unmark_vector]
    exact joins space wide
  all_goals
    try simp only [unmark_vector]
    rfl

end ValueType

namespace Value

theorem readAs_unmark (value : Value) (target : ValueType) :
    (unmark value).readAs (unmark target) = unmark (value.readAs target) := by
  cases target with
  | integer | boolean | symbol =>
      rw [readAs_of_tag_ne (by simp [ValueType.tag]), readAs_of_tag_ne (by simp [ValueType.tag])]
  | vector space =>
      rw [ValueType.unmark_vector]
      cases value with
      | integer | boolean => rfl
      | symbol category =>
          exact (unmark_vector { SparseVector.unit category with space := space }).symm
      | vector tally =>
          rw [unmark_vector]
          exact (unmark_vector { tally with space := space }).symm

/-- A conversion gives the same value, or the same fault, up to marks. -/
theorem convert?_unmark (value : Value) (target : ValueType) :
    (unmark value).convert? (unmark target) = unmark (value.convert? target) := by
  rw [convert?_eq, convert?_eq, type_unmark, ValueType.convertsTo_unmark, readAs_unmark]
  split <;> rfl

end Value

end DiceOdds
