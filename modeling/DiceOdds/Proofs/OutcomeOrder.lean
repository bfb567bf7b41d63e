import DiceOdds.Proofs.Evaluation
import DiceOdds.Proofs.Widening

/-
This file shows that a conversion keeps the outcomes of an expression apart and in their order.
Ascending events are neither sorted nor merged again, and values of one type keep their order.
-/

namespace DiceOdds

namespace Distribution

variable {A B E : Type} [Ord A] [Ord B]

theorem foldr_absorb_of_ascending {events : List (Event A)}
    (ascending : events.Pairwise fun first second => compare first.value second.value = .lt) :
    events.foldr Event.absorb [] = events := by
  induction events with
  | nil => rfl
  | cons event rest known =>
      obtain ⟨before, ordered⟩ := List.pairwise_cons.1 ascending
      rw [List.foldr_cons, known ordered]
      cases rest with
      | nil => rfl
      | cons next others => rw [Event.absorb, before next List.mem_cons_self]

/-- Ascending events make the distribution that lists them. -/
theorem ofEvents_of_ascending {events : List (Event A)}
    (ascending : events.Pairwise fun first second => compare first.value second.value = .lt) :
    ofEvents events = ⟨events⟩ := by
  have sorted : events.mergeSort Event.notAfter = events := by
    refine List.mergeSort_of_pairwise (ascending.imp fun less => ?_)
    rw [Event.notAfter, less]
    rfl
  rw [ofEvents, sorted, foldr_absorb_of_ascending ascending]

omit [Ord A] in
/-- Where every outcome has an image, the images are those of a map that cannot fail. -/
theorem tryMap_eq_map {distribution : Distribution A} {image : A → Except E B} {result : A → B}
    (imaged : ∀ value ∈ distribution.values, image value = .ok (result value)) :
    distribution.tryMap image = .ok (distribution.map result) := by
  have ran : (distribution.events.mapM fun event => do
      return (⟨← image event.value, event.probability⟩ : Event B)) =
      .ok (distribution.events.map fun event => ⟨result event.value, event.probability⟩) := by
    rw [Except.mapM_eq_ok_iff, List.map_map]
    refine List.map_congr_left fun event member => ?_
    rw [imaged event.value (List.mem_map_of_mem member)]
    rfl
  rw [tryMap, ran]
  rfl

/-- Images that keep their order are neither merged nor moved. -/
theorem tryMap_of_increasing {distribution : Distribution A} (image : A → Except E B) (result : A → B)
    (ascending : distribution.Ascending)
    (imaged : ∀ event ∈ distribution.events, image event.value = .ok (result event.value))
    (increasing : ∀ first ∈ distribution.events, ∀ second ∈ distribution.events,
      compare first.value second.value = .lt →
        compare (result first.value) (result second.value) = .lt) :
    distribution.tryMap image =
      .ok ⟨distribution.events.map fun event => ⟨result event.value, event.probability⟩⟩ := by
  rw [tryMap_eq_map (List.forall_mem_map.2 imaged)]
  refine congrArg Except.ok (ofEvents_of_ascending (List.pairwise_map.2 ?_))
  exact ascending.imp_of_mem fun first second => increasing _ first _ second

end Distribution

namespace Expression

section Outcomes

variable {source : Expression} (built : source.Built) {outcomes : Distribution Value}
  (evaluated : source.evaluate = .ok outcomes)
include built evaluated

/-- The outcomes of an expression are well-formed values of its type. -/
theorem Built.outcomes_wellFormed {event : Event Value} (member : event ∈ outcomes.events) :
    event.value.WellFormed ∧ event.value.type == source.type := by
  obtain ⟨-, quantity, law, realizes⟩ := built.sound.law outcomes evaluated
  obtain ⟨roll, reaches⟩ := law.describes.exists_roll member
  obtain ⟨-, -, -, -, formed, typed⟩ := realizes roll
  rw [← reaches]
  exact ⟨formed, typed⟩

variable {target : ValueType} (converts : source.type.convertsTo target = true)
include converts

/-- Every outcome is converted by reading it in the target type. -/
theorem Built.outcomes_convert {event : Event Value} (member : event ∈ outcomes.events) :
    event.value.convert? target = .ok (event.value.readAs target) := by
  refine Value.convert?_eq_ok_iff.2 ⟨?_, rfl⟩
  rw [ValueType.convertsTo_congr (built.outcomes_wellFormed evaluated member).2]
  exact converts

/-- A converted expression reads the outcomes of its source in the target type, one by one. -/
theorem Built.evaluate_converted (ofTarget : target.WellFormed) :
    (Expression.converted source target).evaluate =
      .ok ⟨outcomes.events.map fun event => ⟨event.value.readAs target, event.probability⟩⟩ := by
  obtain ⟨-, quantity, law, -⟩ := built.sound.law outcomes evaluated
  rw [evaluate, evaluated]
  refine Distribution.tryMap_of_increasing (fun value => value.convert? target)
    (fun value => value.readAs target) law.ascending
    (fun event => built.outcomes_convert evaluated converts) fun first inside second also less => ?_
  obtain ⟨ofFirst, typedFirst⟩ := built.outcomes_wellFormed evaluated inside
  obtain ⟨ofSecond, typedSecond⟩ := built.outcomes_wellFormed evaluated also
  have accepts : first.value.type.convertsTo target = true := by
    rw [ValueType.convertsTo_congr typedFirst]
    exact converts
  rw [Value.compare_readAs ofTarget ofFirst ofSecond (BEq.trans typedFirst (BEq.symm typedSecond))
    accepts]
  exact less

end Outcomes

/-- Conversions never merge or reorder outcomes. A converted expression has as many outcomes as its
source, each with the probability and the image of the outcome in its place, and two vectors of one
space are in the same order after they are widened. -/
theorem convert?_keeps_order :
    (∀ (source mapped : Expression) (target : ValueType) (outcomes : Distribution Value),
      source.Built → target.WellFormed → source.convert? target = .ok mapped →
        source.evaluate = .ok outcomes → ∃ images, mapped.evaluate = .ok images ∧
          List.Forall₂ (fun before after => after.probability = before.probability ∧
            before.value.convert? target = .ok after.value) outcomes.events images.events) ∧
    ∀ (first second : SparseVector) (wide : Space), (Value.vector first).WellFormed →
      (Value.vector second).WellFormed → first.space == second.space → wide.WellFormed →
        wide.covers first.space = true → ∃ wideFirst wideSecond,
          first.embed? wide = .ok wideFirst ∧ second.embed? wide = .ok wideSecond ∧
            (compare (Value.vector first) (.vector second) = .lt ↔
              compare (Value.vector wideFirst) (.vector wideSecond) = .lt) := by
  constructor
  · intro source mapped target outcomes built ofTarget made evaluated
    obtain ⟨converts, rfl⟩ := convert?_eq_ok made
    refine ⟨_, built.evaluate_converted evaluated converts ofTarget, ?_⟩
    rw [List.forall₂_map_right_iff, List.forall₂_same]
    exact fun event member => ⟨rfl, built.outcomes_convert evaluated converts member⟩
  · intro first second wide ofFirst ofSecond same ofWide covered
    have also : wide.covers second.space = true := by
      rw [← Space.covers_congr same]
      exact covered
    have order : compare ((Value.vector first).readAs (.vector wide))
        ((Value.vector second).readAs (.vector wide)) =
        compare (Value.vector first) (.vector second) :=
      Value.compare_readAs ofWide ofFirst ofSecond (ValueType.vector_beq.trans same) covered
    refine ⟨_, _, SparseVector.embed?_of_covers covered, SparseVector.embed?_of_covers also, ?_⟩
    rw [← order]
    rfl

/-- A symbol has one outcome as a vector too, and its multiples stay in order behind a new dimension. -/
theorem convert?_keeps_order_symbol :
    let symbol : Expression := .constant (.symbol ⟨"b", .tick⟩)
    let wide : Space := ⟨[(⟨"a", .tick⟩, .integer), (⟨"b", .tick⟩, .integer)]⟩
    let multiple (number : Int) : SparseVector :=
      ⟨.unit ⟨"b", .tick⟩, [(⟨"b", .tick⟩, .integer number)]⟩
    symbol.Built ∧ wide.WellFormed ∧
      (∃ images, (converted symbol (.vector wide)).evaluate = .ok images ∧ images.size = 1) ∧
      ∃ wideFirst wideSecond, (multiple 2).embed? wide = .ok wideFirst ∧
        (multiple 3).embed? wide = .ok wideSecond ∧
        compare (Value.vector wideFirst) (.vector wideSecond) = .lt := by
  intro symbol wide multiple
  obtain ⟨outcomes, vectors⟩ := convert?_keeps_order
  have built : symbol.Built := .constant (.symbol _)
  have ofWide : wide.WellFormed := .vector _ (by unfold Symbol.Ascending; decide)
    (by simp [ValueType.WellFormed.integer])
  have formed {number : Int} (small : Representable number)
      (nonzero : (Value.integer number).isZero = false) :
      (Value.vector (multiple number)).WellFormed :=
    SparseVector.single_wellFormed (Space.unit_wellFormed _) rfl (.integer number small) BEq.rfl
      nonzero
  obtain ⟨images, evaluated, related⟩ := outcomes symbol _ (.vector wide) _ built ofWide
    (show symbol.convert? (.vector wide) = .ok (converted symbol (.vector wide)) from rfl)
    (show symbol.evaluate = .ok (.certain (.symbol ⟨"b", .tick⟩)) from rfl)
  obtain ⟨wideFirst, wideSecond, ofFirst, ofSecond, order⟩ := vectors (multiple 2) (multiple 3) wide
    (formed (by decide) rfl) (formed (by decide) rfl) BEq.rfl ofWide rfl
  exact ⟨built, ofWide, ⟨images, evaluated, related.length_eq.symm⟩, wideFirst, wideSecond, ofFirst,
    ofSecond, order.1 rfl⟩

end Expression

end DiceOdds
