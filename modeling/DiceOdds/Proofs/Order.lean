import DiceOdds.Value
import Mathlib.Tactic

/-
This file shows that symbols, types and values are totally preordered, and that two of them compare
as equal exactly when they differ in marks at most.
-/

namespace DiceOdds

instance : Std.TransOrd Symbol :=
  inferInstanceAs (Std.TransCmp (compareOn Symbol.name))

theorem Symbol.compare_eq_iff {first second : Symbol} :
    compare first second = .eq ↔ first.name = second.name :=
  Std.LawfulEqOrd.compare_eq_iff_eq (a := first.name)

theorem Symbol.beq_iff {first second : Symbol} :
    (first == second) = true ↔ first.name = second.name :=
  beq_iff_eq (a := first.name)

instance : EquivBEq Symbol where
  rfl := by simp [Symbol.beq_iff]
  symm := by simp only [Symbol.beq_iff]; exact Eq.symm
  trans := by simp only [Symbol.beq_iff]; exact Eq.trans

namespace ValueType

/-- An induction over a type reaches the types of its dimensions. -/
theorem induction {motive : ValueType → Prop} (integer : motive .integer)
    (boolean : motive .boolean) (symbol : ∀ category, motive (.symbol category))
    (vector : ∀ dimensions, (∀ dimension ∈ dimensions, motive dimension.2) →
      motive (.vector ⟨dimensions⟩)) (type : ValueType) : motive type :=
  @ValueType.rec motive (fun space => motive (.vector space))
    (fun dimensions => ∀ dimension ∈ dimensions, motive dimension.2)
    (fun dimension => motive dimension.2) integer boolean symbol (fun _ known => known) vector
    (by simp) (fun _ _ first rest => List.forall_mem_cons.2 ⟨first, rest⟩)
    (fun _ _ known => known) type

mutual

/-- The code of a type spells it without marks, so that no code begins another one. -/
def code : ValueType → List String
  | .integer => ["0"]
  | .boolean => ["1"]
  | .symbol category => ["2", category.name]
  | .vector ⟨dimensions⟩ => "3" :: dimensionsCode dimensions

def dimensionsCode : List (Symbol × ValueType) → List String
  | [] => ["0"]
  | (dimension, type) :: rest => "1" :: dimension.name :: (code type ++ dimensionsCode rest)

end

/-- The spellings of the four forms are increasing. -/
theorem code_forms : compare "0" "1" = .lt ∧ compare "0" "2" = .lt ∧ compare "0" "3" = .lt ∧
    compare "1" "2" = .lt ∧ compare "1" "3" = .lt ∧ compare "2" "3" = .lt ∧
    compare "1" "0" = .gt ∧ compare "2" "0" = .gt ∧ compare "3" "0" = .gt ∧
    compare "2" "1" = .gt ∧ compare "3" "1" = .gt ∧ compare "3" "2" = .gt := by
  decide

/-- Codes are ordered as their types are, whatever follows them. -/
theorem code_compare (first : ValueType) : ∀ (second : ValueType) (left right : List String),
    compare (first.code ++ left) (second.code ++ right) =
      (first.order second).then (compare left right) := by
  induction first using induction with
  | integer =>
      intro second left right
      rcases second with _ | _ | _ | ⟨⟨dimensions⟩⟩ <;>
        simp [code, order, List.compare_cons_cons, code_forms]
  | boolean =>
      intro second left right
      rcases second with _ | _ | _ | ⟨⟨dimensions⟩⟩ <;>
        simp [code, order, List.compare_cons_cons, code_forms]
  | symbol category =>
      intro second left right
      rcases second with _ | _ | other | ⟨⟨dimensions⟩⟩ <;>
        simp [code, order, List.compare_cons_cons, code_forms]
      rfl
  | vector dimensions known =>
      intro second left right
      rcases second with _ | _ | _ | ⟨⟨others⟩⟩
      iterate 3 simp [code, order, List.compare_cons_cons, code_forms]
      simp only [code, order, List.cons_append, List.compare_cons_cons, Std.ReflOrd.compare_self,
        Ordering.eq_then]
      induction dimensions generalizing others with
      | nil =>
          rcases others with _ | ⟨⟨other, type⟩, others⟩ <;>
            simp [dimensionsCode, orderDimensions, List.compare_cons_cons, code_forms]
      | cons dimension dimensions tail =>
          rcases others with _ | ⟨⟨other, type⟩, others⟩
          · simp [dimensionsCode, orderDimensions, List.compare_cons_cons, code_forms]
          · have head := known dimension (by simp) type
            have rest := tail (fun found member => known found (by simp [member])) others
            simp only [dimensionsCode, orderDimensions, List.cons_append, List.append_assoc,
              List.compare_cons_cons, Std.ReflOrd.compare_self, Ordering.eq_then, head, rest,
              Ordering.then_assoc]
            rfl

theorem order_eq_compare (first second : ValueType) :
    first.order second = compare first.code second.code := by
  have ended := code_compare first second [] []
  simp only [List.append_nil, Std.ReflOrd.compare_self, Ordering.then_eq] at ended
  exact ended.symm

instance : Std.TransOrd ValueType where
  eq_swap := by
    intro first second
    change first.order second = (second.order first).swap
    rw [order_eq_compare, order_eq_compare]
    exact Std.OrientedCmp.eq_swap
  isLE_trans := by
    intro first second third before after
    change (first.order second).isLE at before
    change (second.order third).isLE at after
    change (first.order third).isLE
    rw [order_eq_compare] at before after ⊢
    exact Std.TransCmp.isLE_trans before after

theorem beq_iff_compare {first second : ValueType} :
    (first == second) = true ↔ compare first second = .eq :=
  beq_iff_eq (a := first.order second)

instance : EquivBEq ValueType where
  rfl := by simp [beq_iff_compare]
  symm := by simp only [beq_iff_compare]; exact Std.OrientedCmp.eq_symm
  trans := by simp only [beq_iff_compare]; exact Std.TransCmp.eq_trans

/-- Two lists of dimensions agree when their names and types agree in turn. -/
theorem orderDimensions_eq_iff {first second : List (Symbol × ValueType)} :
    orderDimensions first second = .eq ↔
      List.Forall₂ (fun left right => left.1 == right.1 ∧ left.2 == right.2) first second := by
  induction first generalizing second with
  | nil => cases second <;> simp [orderDimensions]
  | cons dimension rest known =>
      rcases second with _ | ⟨⟨other, type⟩, others⟩
      · simp [orderDimensions]
      · simp only [orderDimensions, Ordering.then_eq_eq, known, List.forall₂_cons,
          Symbol.compare_eq_iff, Symbol.beq_iff, beq_iff_compare, and_assoc]
        rfl

theorem vector_beq {first second : Space} :
    (ValueType.vector first == .vector second) = (first == second) := by
  cases first
  cases second
  rfl

/-- A type that equals an integer type is one. -/
theorem eq_integer_of_beq {type : ValueType} (same : type == .integer) : type = .integer := by
  rcases type with _ | _ | _ | ⟨⟨dimensions⟩⟩
  · rfl
  all_goals exact absurd same (by simp [beq_iff_compare, compare, order])

theorem eq_boolean_of_beq {type : ValueType} (same : type == .boolean) : type = .boolean := by
  rcases type with _ | _ | _ | ⟨⟨dimensions⟩⟩
  case boolean => rfl
  all_goals exact absurd same (by simp [beq_iff_compare, compare, order])

theorem eq_symbol_of_beq {type : ValueType} {category : Symbol} (same : type == .symbol category) :
    ∃ other, type = .symbol other ∧ other == category := by
  rcases type with _ | _ | other | ⟨⟨dimensions⟩⟩
  case symbol =>
    exact ⟨other, rfl, Symbol.beq_iff.2 (Symbol.compare_eq_iff.1 (beq_iff_compare.1 same))⟩
  all_goals exact absurd same (by simp [beq_iff_compare, compare, order])

theorem eq_vector_of_beq {type : ValueType} {space : Space} (same : type == .vector space) :
    ∃ other, type = .vector other ∧ other == space := by
  rcases type with _ | _ | _ | other
  case vector => exact ⟨other, rfl, by rwa [vector_beq] at same⟩
  all_goals
    obtain ⟨dimensions⟩ := space
    exact absurd same (by simp [beq_iff_compare, compare, order])

end ValueType

namespace Space

theorem beq_iff {first second : Space} :
    (first == second) = true ↔ List.Forall₂ (fun left right => left.1 == right.1 ∧ left.2 == right.2)
      first.dimensions second.dimensions :=
  (beq_iff_eq (a := ValueType.orderDimensions first.dimensions second.dimensions)).trans
    ValueType.orderDimensions_eq_iff

instance : EquivBEq Space where
  rfl := by simp [← ValueType.vector_beq]
  symm := by simp only [← ValueType.vector_beq]; exact BEq.symm
  trans := by simp only [← ValueType.vector_beq]; exact BEq.trans

end Space

namespace Value

instance : Std.TransOrd Value :=
  inferInstanceAs (Std.TransCmp (compareLex (compareOn type) (compareOn leaves)))

theorem beq_iff_compare {first second : Value} :
    (first == second) = true ↔ compare first second = .eq :=
  beq_iff_eq (a := first.order second)

/-- Two values agree when their types and their leaves do. -/
theorem beq_iff {first second : Value} :
    (first == second) = true ↔ first.type == second.type ∧ first.leaves = second.leaves := by
  rw [beq_iff_compare, ValueType.beq_iff_compare]
  exact Ordering.then_eq_eq.trans (and_congr_right fun _ => Std.LawfulEqOrd.compare_eq_iff_eq)

instance : EquivBEq Value where
  rfl := by simp [beq_iff_compare]
  symm := by simp only [beq_iff_compare]; exact Std.OrientedCmp.eq_symm
  trans := by simp only [beq_iff_compare]; exact Std.TransCmp.eq_trans

/-- A value of an integer type is an integer, and likewise for the other forms. -/
theorem eq_integer_of_type {value : Value} (typed : value.type == .integer) :
    ∃ number, value = .integer number := by
  cases value with
  | integer number => exact ⟨number, rfl⟩
  | _ => cases ValueType.eq_integer_of_beq typed

theorem eq_boolean_of_type {value : Value} (typed : value.type == .boolean) :
    ∃ truth, value = .boolean truth := by
  cases value with
  | boolean truth => exact ⟨truth, rfl⟩
  | _ => cases ValueType.eq_boolean_of_beq typed

theorem eq_symbol_of_type {value : Value} {category : Symbol}
    (typed : value.type == .symbol category) :
    ∃ other, value = .symbol other ∧ other == category := by
  obtain ⟨other, same, agrees⟩ := ValueType.eq_symbol_of_beq typed
  cases value with
  | symbol =>
      cases same
      exact ⟨_, rfl, agrees⟩
  | _ => cases same

theorem eq_vector_of_type {value : Value} {space : Space} (typed : value.type == .vector space) :
    ∃ vector, value = .vector vector ∧ vector.space == space := by
  obtain ⟨other, same, agrees⟩ := ValueType.eq_vector_of_beq typed
  cases value with
  | vector =>
      cases same
      exact ⟨_, rfl, agrees⟩
  | _ => cases same

end Value

/-- Two strictly increasing lists that reach each other are related entry by entry. -/
theorem forall₂_of_increasing {A : Type} (order : A → A → Ordering) [Std.TransCmp order]
    {related : A → A → Prop} (aligned : ∀ one other, related one other → order one other = .eq)
    {left right : List A} (ofLeft : left.Pairwise fun first second => order first second = .lt)
    (ofRight : right.Pairwise fun first second => order first second = .lt)
    (reaches : ∀ one ∈ left, ∃ other ∈ right, related one other)
    (reached : ∀ other ∈ right, ∃ one ∈ left, related one other) :
    List.Forall₂ related left right := by
  have apart {first second : A} (less : order first second = .lt) : order second first ≠ .eq := by
    rw [Std.OrientedCmp.gt_of_lt less]
    decide
  induction left generalizing right with
  | nil =>
      cases right with
      | nil => exact .nil
      | cons other others =>
          obtain ⟨one, member, -⟩ := reached other List.mem_cons_self
          cases member
  | cons one ones known =>
      cases right with
      | nil =>
          obtain ⟨other, member, -⟩ := reaches one List.mem_cons_self
          cases member
      | cons other others =>
          obtain ⟨after, orderedLeft⟩ := List.pairwise_cons.1 ofLeft
          obtain ⟨later, orderedRight⟩ := List.pairwise_cons.1 ofRight
          have heads : related one other := by
            obtain ⟨found, present, agrees⟩ := reaches one List.mem_cons_self
            obtain ⟨source, inside, same⟩ := reached other List.mem_cons_self
            rcases List.mem_cons.1 present with rfl | beyond
            · exact agrees
            · rcases List.mem_cons.1 inside with rfl | behind
              · exact same
              · have less := Std.TransCmp.lt_trans
                  (Std.TransCmp.lt_of_lt_of_eq (after source behind) (aligned _ _ same))
                  (later found beyond)
                exact absurd (Std.OrientedCmp.eq_symm (aligned _ _ agrees)) (apart less)
          refine .cons heads (known orderedLeft orderedRight (fun next member => ?_)
            fun next member => ?_)
          · obtain ⟨found, present, agrees⟩ := reaches next (List.mem_cons_of_mem _ member)
            rcases List.mem_cons.1 present with rfl | beyond
            · have same := Std.TransCmp.eq_trans (aligned _ _ agrees)
                (Std.OrientedCmp.eq_symm (aligned _ _ heads))
              exact absurd same (apart (after next member))
            · exact ⟨found, beyond, agrees⟩
          · obtain ⟨source, inside, agrees⟩ := reached next (List.mem_cons_of_mem _ member)
            rcases List.mem_cons.1 inside with rfl | behind
            · have same := Std.TransCmp.eq_trans (Std.OrientedCmp.eq_symm (aligned _ _ agrees))
                (aligned _ _ heads)
              exact absurd same (apart (later next member))
            · exact ⟨source, behind, agrees⟩

/-- A strictly increasing list that reaches into another one is related to a part of it. -/
theorem exists_sublist_of_increasing {A : Type} (order : A → A → Ordering) [Std.TransCmp order]
    {related : A → A → Prop} (aligned : ∀ one other, related one other → order one other = .eq)
    {left right : List A} (ofLeft : left.Pairwise fun first second => order first second = .lt)
    (ofRight : right.Pairwise fun first second => order first second = .lt)
    (reaches : ∀ one ∈ left, ∃ other ∈ right, related one other) :
    ∃ part : List A, part.Sublist right ∧ List.Forall₂ related left part := by
  classical
  refine ⟨right.filter fun other => ∃ one ∈ left, related one other, List.filter_sublist,
    forall₂_of_increasing order aligned ofLeft (ofRight.filter _) (fun one member => ?_)
      fun other chosen => ?_⟩
  · obtain ⟨other, inside, agrees⟩ := reaches one member
    exact ⟨other, List.mem_filter.2 ⟨inside, decide_eq_true ⟨one, member, agrees⟩⟩, agrees⟩
  · exact of_decide_eq_true (List.mem_filter.1 chosen).2

/-- Lists that are related to lists with related entries in turn have related entries in turn. -/
theorem forall₂_of_square {A B C D : Type} {top : A → B → Prop} {left : A → C → Prop}
    {right : B → D → Prop} {bottom : C → D → Prop} {ones : List A} {others : List B} {firsts : List C}
    {seconds : List D} (across : List.Forall₂ top ones others) (down : List.Forall₂ left ones firsts)
    (also : List.Forall₂ right others seconds)
    (closes : ∀ one other first second, top one other → left one first → right other second →
      bottom first second) : List.Forall₂ bottom firsts seconds := by
  induction across generalizing firsts seconds with
  | nil =>
      cases down
      cases also
      exact .nil
  | cons related _ known =>
      cases down with
      | cons head rest =>
          cases also with
          | cons first later => exact .cons (closes _ _ _ _ related head first) (known rest later)

end DiceOdds
