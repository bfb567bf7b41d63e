import DiceOdds.Proofs.NormalForm

/-
This file shows that joining independent draws is a product of their weights. Merging equal outcomes
between two joins changes nothing that a later join can see, so the laws of an operation on outcomes
are laws of the join.
-/

namespace DiceOdds

namespace Event

variable {A : Type} [Ord A] {first second : List (Event A)}

theorem WeighSame.refl (events : List (Event A)) : WeighSame events events :=
  ⟨fun _ => Iff.rfl, fun _ => rfl⟩

variable [Std.TransOrd A]

/-- What respects the order holds of some outcome of both lists or of none. -/
theorem WeighSame.exists_iff (same : WeighSame first second) {holds : A → Prop}
    (respects : Respects holds) :
    (∃ event ∈ first, holds event.value) ↔ ∃ event ∈ second, holds event.value := by
  have moves {one other : List (Event A)} (weigh : WeighSame one other)
      (found : ∃ event ∈ one, holds event.value) : ∃ event ∈ other, holds event.value := by
    obtain ⟨event, member, held⟩ := found
    obtain ⟨equal, inside, related⟩ :=
      (weigh.occurs event.value).1 ⟨event, member, Std.ReflCmp.compare_self⟩
    exact ⟨equal, inside, (respects _ _ related).mpr held⟩
  exact ⟨moves same, moves same.symm⟩

/-- What respects the order has the same mean over both lists. -/
theorem WeighSame.expectation_eq (same : WeighSame first second) {weight : A → Rat}
    (respects : Respects weight) : expectation first weight = expectation second weight := by
  have normal : (Distribution.ofEvents first).Matches (.ofEvents second) :=
    Distribution.ofEvents_matches_iff.2 same
  rw [← Distribution.expectation_ofEvents respects first,
    ← Distribution.expectation_ofEvents respects second]
  rw [Distribution.Matches] at normal
  generalize (Distribution.ofEvents first).events = left at normal ⊢
  generalize (Distribution.ofEvents second).events = right at normal ⊢
  induction normal with
  | nil => rfl
  | cons related rest known =>
      rw [expectation_cons, expectation_cons, known, related.2, respects _ _ related.1]

/-- Two lists weigh the same as soon as nothing that respects the order tells them apart. -/
theorem weighSame_of_respects
    (occurs : ∀ holds : A → Prop, Respects holds →
      ((∃ event ∈ first, holds event.value) ↔ ∃ event ∈ second, holds event.value))
    (weighs : ∀ weight : A → Rat, Respects weight →
      expectation first weight = expectation second weight) : WeighSame first second := by
  constructor
  · intro value
    apply occurs fun other => compare other value = .eq
    intro one other same
    simp only [Std.TransCmp.congr_left same]
  · intro value
    rw [mass_eq_expectation, mass_eq_expectation]
    apply weighs
    intro one other same
    simp only [Std.TransCmp.congr_left same]

end Event

namespace Distribution

section Product

variable {A B C : Type} [Ord C]

/-- A join lists the products of all pairs and then merges equal results. -/
theorem join_eq_ofEvents (left : Distribution A) (right : Distribution B) (image : A → B → C) :
    left.join right image = ofEvents ((left.events.product right.events).map fun pair =>
      ⟨image pair.1.value pair.2.value, pair.1.probability * pair.2.probability⟩) := by
  rw [join, pairs, List.product]
  simp only [List.map_flatMap, List.map_map]
  rfl

theorem expectation_join {weight : C → Rat} (respects : Respects weight) (left : Distribution A)
    (right : Distribution B) (image : A → B → C) :
    Event.expectation (left.join right image).events weight =
      Event.expectation left.events fun first =>
        Event.expectation right.events fun second => weight (image first second) := by
  rw [join, expectation_ofEvents respects,
    Event.expectation_map _ (fun pair : A × B => image pair.1 pair.2), expectation_pairs]

theorem total_join (left : Distribution A) (right : Distribution B) (image : A → B → C) :
    (left.join right image).total = left.total * right.total := by
  have constant : Respects fun _ : C => (1 : Rat) := fun _ _ _ => rfl
  rw [total_eq_expectation, expectation_join constant, total_eq_expectation, total_eq_expectation,
    Event.expectation, List.sum_map_mul_right, Event.expectation_one left.events]

variable [Std.TransOrd C]

/-- The outcomes of a join are the images of the pairs of outcomes. -/
theorem exists_mem_join_iff {holds : C → Prop} (respects : Respects holds) (left : Distribution A)
    (right : Distribution B) (image : A → B → C) :
    (∃ event ∈ (left.join right image).events, holds event.value) ↔
      ∃ first ∈ left.events, ∃ second ∈ right.events, holds (image first.value second.value) := by
  rw [join_eq_ofEvents, (ofEvents_weighSame _).exists_iff respects]
  constructor
  · rintro ⟨event, member, held⟩
    obtain ⟨⟨first, second⟩, chosen, rfl⟩ := List.mem_map.1 member
    obtain ⟨inLeft, inRight⟩ := List.mem_product.1 chosen
    exact ⟨first, inLeft, second, inRight, held⟩
  · rintro ⟨first, inLeft, second, inRight, held⟩
    exact ⟨_, List.mem_map_of_mem (List.mem_product.2 ⟨inLeft, inRight⟩), held⟩

/-- The mass of a value is the sum of the products of the pairs that the image sends to it. -/
theorem mass_join (left : Distribution A) (right : Distribution B) (image : A → B → C)
    (value : C) :
    Event.mass (left.join right image).events value =
      (((left.events.product right.events).filter fun pair =>
        compare (image pair.1.value pair.2.value) value == .eq).map fun pair =>
          pair.1.probability * pair.2.probability).sum := by
  rw [join_eq_ofEvents, (ofEvents_weighSame _).mass, Event.mass_eq_sum, List.filter_map,
    List.map_map]
  rfl

theorem join_ascending (left : Distribution A) (right : Distribution B) (image : A → B → C) :
    (left.join right image).Ascending :=
  ofEvents_ascending _

end Product

/-- An operation joins alike when it does not tell equal operands apart and when operands that are
grouped in another way have equal results. -/
structure JoinsAlike {A : Type} [Ord A] (image : A → A → A) : Prop where
  equal : ∀ {first second one other : A}, compare first second = .eq → compare one other = .eq →
    compare (image first one) (image second other) = .eq
  regrouped : ∀ first second third : A,
    compare (image (image first second) third) (image first (image second third)) = .eq

/-- Where equal values are identical, every associative operation joins alike. -/
theorem JoinsAlike.of_associative {A : Type} [Ord A] [Std.TransOrd A] [Std.LawfulEqOrd A]
    {image : A → A → A}
    (associative : ∀ first second third,
      image (image first second) third = image first (image second third)) : JoinsAlike image := by
  constructor
  · intro first second one other same also
    rw [Std.LawfulEqOrd.eq_of_compare same, Std.LawfulEqOrd.eq_of_compare also]
    exact Std.ReflCmp.compare_self
  · intro first second third
    rw [associative]
    exact Std.ReflCmp.compare_self

theorem join_comm {A : Type} [Ord A] [Std.TransOrd A] {image : A → A → A}
    (exchanged : ∀ first second : A, compare (image first second) (image second first) = .eq)
    (first second : Distribution A) :
    Event.WeighSame (first.join second image).events (second.join first image).events := by
  apply Event.weighSame_of_respects
  · intro holds respects
    rw [exists_mem_join_iff respects, exists_mem_join_iff respects]
    constructor
    · rintro ⟨one, inFirst, other, inSecond, held⟩
      exact ⟨other, inSecond, one, inFirst, (respects _ _ (exchanged _ _)).mp held⟩
    · rintro ⟨other, inSecond, one, inFirst, held⟩
      exact ⟨one, inFirst, other, inSecond, (respects _ _ (exchanged _ _)).mp held⟩
  · intro weight respects
    rw [expectation_join respects, expectation_join respects, Event.expectation_swap]
    have exchange (one other : A) := respects _ _ (exchanged one other)
    simp only [exchange]

section Fold

variable {A : Type} [Ord A] [Std.TransOrd A] {image : A → A → A} (alike : JoinsAlike image)
include alike

namespace JoinsAlike

theorem respects_left {B : Type} {weight : A → B} (respects : Respects weight) (second : A) :
    Respects fun first => weight (image first second) :=
  fun _ _ same => respects _ _ (alike.equal same Std.ReflCmp.compare_self)

theorem respects_right {B : Type} {weight : A → B} (respects : Respects weight) (first : A) :
    Respects fun second => weight (image first second) :=
  fun _ _ same => respects _ _ (alike.equal Std.ReflCmp.compare_self same)

theorem respects_exists {holds : A → Prop} (respects : Respects holds)
    (distribution : Distribution A) :
    Respects fun value => ∃ event ∈ distribution.events, holds (image value event.value) := by
  intro first second same
  simp only [alike.respects_left respects _ first second same]

theorem respects_expectation {weight : A → Rat} (respects : Respects weight)
    (distribution : Distribution A) :
    Respects fun value =>
      Event.expectation distribution.events fun event => weight (image value event) := by
  intro first second same
  simp only [alike.respects_left respects _ first second same]

/-- A join only sees what its operands weigh. -/
theorem join_weighSame {first second one other : Distribution A}
    (same : Event.WeighSame first.events second.events)
    (also : Event.WeighSame one.events other.events) :
    Event.WeighSame (first.join one image).events (second.join other image).events := by
  apply Event.weighSame_of_respects
  · intro holds respects
    rw [exists_mem_join_iff respects, exists_mem_join_iff respects]
    have inner (value : A) := also.exists_iff (alike.respects_right respects value)
    simp only [inner]
    exact same.exists_iff (alike.respects_exists respects other)
  · intro weight respects
    rw [expectation_join respects, expectation_join respects]
    have inner (value : A) := also.expectation_eq (alike.respects_right respects value)
    simp only [inner]
    exact same.expectation_eq (alike.respects_expectation respects other)

/-- Three distributions can be joined from either side. -/
theorem join_join (first second third : Distribution A) :
    Event.WeighSame ((first.join second image).join third image).events
      (first.join (second.join third image) image).events := by
  apply Event.weighSame_of_respects
  · intro holds respects
    have inner (value : A) :=
      exists_mem_join_iff (alike.respects_right respects value) second third image
    rw [exists_mem_join_iff respects, exists_mem_join_iff (alike.respects_exists respects third),
      exists_mem_join_iff respects]
    simp only [inner, respects _ _ (alike.regrouped _ _ _)]
  · intro weight respects
    have inner (value : A) :=
      expectation_join (alike.respects_right respects value) second third image
    rw [expectation_join respects, expectation_join (alike.respects_expectation respects third),
      expectation_join respects]
    simp only [inner, respects _ _ (alike.regrouped _ _ _)]

/-- What is joined to distributions of one weight keeps one weight. -/
theorem foldl_join_weighSame {first second : Distribution A}
    (same : Event.WeighSame first.events second.events) (rest : List (Distribution A)) :
    Event.WeighSame (rest.foldl (fun drawn next => drawn.join next image) first).events
      (rest.foldl (fun drawn next => drawn.join next image) second).events := by
  induction rest generalizing first second with
  | nil => exact same
  | cons next rest known => exact known (alike.join_weighSame same (Event.WeighSame.refl _))

/-- The first distribution can be joined to all others at the end. -/
theorem foldl_join_join (first second : Distribution A) (rest : List (Distribution A)) :
    Event.WeighSame
      (rest.foldl (fun drawn next => drawn.join next image) (first.join second image)).events
      (first.join (rest.foldl (fun drawn next => drawn.join next image) second) image).events := by
  induction rest generalizing second with
  | nil => exact Event.WeighSame.refl _
  | cons next rest known =>
      have moved := alike.foldl_join_weighSame (alike.join_join first second next) rest
      exact moved.trans (known (second.join next image))

section Exchange

variable (exchanged : ∀ first second : A, compare (image first second) (image second first) = .eq)
include exchanged

/-- Two distributions can be joined to a first one in either order. -/
theorem join_right_comm (first second third : Distribution A) :
    Event.WeighSame ((first.join second image).join third image).events
      ((first.join third image).join second image).events := by
  have inner := alike.join_weighSame (Event.WeighSame.refl first.events)
    (join_comm exchanged second third)
  exact (alike.join_join first second third).trans
    (inner.trans (alike.join_join first third second).symm)

theorem foldl_join_perm {rest others : List (Distribution A)} (moved : rest.Perm others)
    (first : Distribution A) :
    Event.WeighSame (rest.foldl (fun drawn next => drawn.join next image) first).events
      (others.foldl (fun drawn next => drawn.join next image) first).events := by
  induction moved generalizing first with
  | nil => exact Event.WeighSame.refl _
  | cons next moved known => exact known (first.join next image)
  | swap one other rest =>
      exact alike.foldl_join_weighSame (alike.join_right_comm exchanged first other one) rest
  | trans before after knownBefore knownAfter => exact (knownBefore first).trans (knownAfter first)

/-- The order of a list does not matter, the first of its distributions included. -/
theorem joinAll_perm {all others : List (Distribution A)} (moved : all.Perm others)
    {one other : Distribution A} (joined : joinAll all image = .ok one)
    (also : joinAll others image = .ok other) : Event.WeighSame one.events other.events := by
  induction moved generalizing one other with
  | nil => cases joined
  | cons first moved =>
      cases joined
      cases also
      exact alike.foldl_join_perm exchanged moved first
  | swap first second rest =>
      cases joined
      cases also
      exact alike.foldl_join_weighSame (join_comm exchanged second first) rest
  | @trans all middle others before after knownBefore knownAfter =>
      cases middle with
      | nil =>
          rw [before.eq_nil] at joined
          cases joined
      | cons first rest => exact (knownBefore joined rfl).trans (knownAfter rfl also)

end Exchange

end JoinsAlike

end Fold

section Results

variable {A : Type} [Ord A] {image : A → A → A}

theorem exists_joinAll_iff {all : List (Distribution A)} :
    (∃ joined, joinAll all image = .ok joined) ↔ all ≠ [] := by
  cases all <;> simp [joinAll]

variable [Std.TransOrd A]

theorem Matches.refl (distribution : Distribution A) : distribution.Matches distribution :=
  List.forall₂_same.2 fun _ _ => ⟨Std.ReflCmp.compare_self, rfl⟩

/-- Of several distributions the last join merges equal outcomes. -/
theorem joinAll_ascending {all : List (Distribution A)} (several : 2 ≤ all.length)
    {joined : Distribution A} (made : joinAll all image = .ok joined) : joined.Ascending := by
  match all, several, made with
  | first :: second :: rest, _, rfl => exact foldl_join_ascending (join_ascending _ _ _) rest image

variable (alike : JoinsAlike image)
include alike

/-- A list that is split in two is joined part by part. -/
theorem JoinsAlike.joinAll_append {before after : List (Distribution A)}
    {left right whole : Distribution A} (ofBefore : joinAll before image = .ok left)
    (ofAfter : joinAll after image = .ok right)
    (ofAll : joinAll (before ++ after) image = .ok whole) :
    whole.Matches (left.join right image) := by
  cases before with
  | nil => cases ofBefore
  | cons first rest =>
      cases after with
      | nil => cases ofAfter
      | cons second others =>
          have several : 2 ≤ (first :: rest ++ second :: others).length := by
            simp only [List.length_append, List.length_cons]
            omega
          apply (joinAll_ascending several ofAll).matches (join_ascending _ _ _)
          cases ofBefore
          cases ofAfter
          cases ofAll
          change Event.WeighSame (List.foldl _ first (rest ++ second :: others)).events _
          rw [List.foldl_append]
          exact alike.foldl_join_join _ second others

/-- A list has one result in every order. -/
theorem JoinsAlike.joinAll_matches
    (exchanged : ∀ first second : A, compare (image first second) (image second first) = .eq)
    {all others : List (Distribution A)} (moved : all.Perm others) {one other : Distribution A}
    (joined : joinAll all image = .ok one) (also : joinAll others image = .ok other) :
    one.Matches other := by
  by_cases several : 2 ≤ all.length
  · have ascending := joinAll_ascending (moved.length_eq ▸ several) also
    exact (joinAll_ascending several joined).matches ascending
      (alike.joinAll_perm exchanged moved joined also)
  · -- A single distribution is not merged, but it has no other order either.
    have alone : all.length = 1 := by
      have some := List.length_pos_iff.2 (exists_joinAll_iff.1 ⟨one, joined⟩)
      omega
    obtain ⟨first, rfl⟩ := List.length_eq_one_iff.1 alone
    obtain rfl := List.perm_singleton.1 moved.symm
    obtain rfl := Except.ok.inj (joined.symm.trans also)
    exact Matches.refl one

end Results

/-- Joining is a product that does not depend on an order. The probability of a value is the sum of the
products of the pairs that the image sends to it, and the totals are multiplied. Operations that join
alike can be grouped in every way, so that a list may be split in two, and if their operands can be
exchanged as well, all orders of a list have equal results. Where equal values are identical, every
associative operation joins alike and equal results are identical. -/
theorem join_product :
    (∀ {A B C : Type} [Ord C] [Std.TransOrd C] (left : Distribution A) (right : Distribution B)
        (image : A → B → C),
      (∀ value,
        let sent := (left.events.product right.events).filter fun pair =>
          compare (image pair.1.value pair.2.value) value == .eq
        let share := (sent.map fun pair => pair.1.probability * pair.2.probability).sum
        (left.join right image).probability value = share ∧
          Event.mass (left.join right image).events value = share) ∧
      (left.join right image).total = left.total * right.total) ∧
    (∀ {A : Type} [Ord A] [Std.TransOrd A] (image : A → A → A), JoinsAlike image →
      (∀ first second third : Distribution A,
        ((first.join second image).join third image).Matches
          (first.join (second.join third image) image)) ∧
      (∀ before after : List (Distribution A), before ≠ [] → after ≠ [] → ∃ left right whole,
        joinAll before image = .ok left ∧ joinAll after image = .ok right ∧
          joinAll (before ++ after) image = .ok whole ∧ whole.Matches (left.join right image)) ∧
      ((∀ first second, compare (image first second) (image second first) = .eq) →
        ∀ all others : List (Distribution A), all ≠ [] → all.Perm others → ∃ one other,
          joinAll all image = .ok one ∧ joinAll others image = .ok other ∧ one.Matches other)) ∧
    ∀ {A : Type} [Ord A] [Std.TransOrd A] [Std.LawfulEqOrd A] (image : A → A → A),
      (∀ first second third, image (image first second) third = image first (image second third)) →
        JoinsAlike image ∧ ∀ first second : Distribution A, first.Matches second → first = second := by
  constructor
  · intro A B C _ _ left right image
    constructor
    · intro value
      have share := mass_join left right image value
      exact ⟨((join_ascending left right image).probability_eq_mass value).trans share, share⟩
    · exact total_join left right image
  constructor
  · intro A _ _ image alike
    constructor
    · intro first second third
      exact (join_ascending _ _ _).matches (join_ascending _ _ _) (alike.join_join first second third)
    constructor
    · intro before after some others
      obtain ⟨left, ofBefore⟩ := exists_joinAll_iff.2 some
      obtain ⟨right, ofAfter⟩ := exists_joinAll_iff.2 others
      obtain ⟨whole, ofAll⟩ := exists_joinAll_iff.2 (List.append_ne_nil_of_left_ne_nil some after)
      exact ⟨left, right, whole, ofBefore, ofAfter, ofAll, alike.joinAll_append ofBefore ofAfter ofAll⟩
    · intro exchanged all others some moved
      obtain ⟨one, joined⟩ := exists_joinAll_iff.2 some
      have filled : others ≠ [] := by
        rintro rfl
        exact some moved.eq_nil
      obtain ⟨other, also⟩ := exists_joinAll_iff.2 filled
      exact ⟨one, other, joined, also, alike.joinAll_matches exchanged moved joined also⟩
  · intro A _ _ _ image associative
    exact ⟨JoinsAlike.of_associative associative, fun first second => Matches.eq⟩

/-- Coins are added up in every order and in every grouping, although equal sums are merged on the way. -/
theorem join_product_coins :
    let sum : Int → Int → Int := fun left right => left + right
    let coin : Distribution Int := ⟨[⟨0, 1 / 2⟩, ⟨1, 1 / 2⟩]⟩
    let biased : Distribution Int := ⟨[⟨0, 1 / 3⟩, ⟨1, 2 / 3⟩]⟩
    JoinsAlike sum ∧ (∀ first second, compare (sum first second) (sum second first) = .eq) ∧
      (coin.join biased sum).probability 1 = 1 / 2 ∧
      (coin.join biased sum).join coin sum = coin.join (biased.join coin sum) sum ∧
      (∃ left right whole, joinAll [coin, coin] sum = .ok left ∧ joinAll [biased] sum = .ok right ∧
        joinAll [coin, coin, biased] sum = .ok whole ∧ whole.Matches (left.join right sum)) ∧
      ∃ one other, joinAll [coin, coin, biased] sum = .ok one ∧
        joinAll [biased, coin, coin] sum = .ok other ∧ one.Matches other := by
  intro sum coin biased
  obtain ⟨product, laws, identical⟩ := join_product
  obtain ⟨alike, equal⟩ := identical sum Int.add_assoc
  obtain ⟨regrouped, split, moved⟩ := laws sum alike
  have exchanged (first second : Int) : compare (sum first second) (sum second first) = .eq :=
    Std.LawfulEqOrd.compare_eq_iff_eq.2 (Int.add_comm first second)
  refine ⟨alike, exchanged, ?_, equal _ _ (regrouped coin biased coin),
    split [coin, coin] [biased] (by simp) (by simp),
    moved exchanged [coin, coin, biased] [biased, coin, coin] (by simp) ?_⟩
  · refine ((product coin biased sum).1 1).1.trans ?_
    change [(1 : Rat) / 2 * (2 / 3), 1 / 2 * (1 / 3)].sum = 1 / 2
    norm_num
  · exact @List.perm_append_comm _ [coin, coin] [biased]

end Distribution

end DiceOdds
