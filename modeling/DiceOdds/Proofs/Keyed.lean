import DiceOdds.Proofs.Order

/-
This file describes the maps from symbols: what an entry changes, and which entries a look-up finds.
-/

namespace DiceOdds

namespace Symbol

variable {A B : Type}

/-- Entries are ascending when the names of their keys strictly increase. -/
def Ascending (entries : List (Symbol × A)) : Prop :=
  entries.Pairwise fun first second => compare first.1 second.1 = .lt

theorem lookup_congr {first second : Symbol} (same : first == second) (entries : List (Symbol × A)) :
    entries.lookup first = entries.lookup second := by
  induction entries with
  | nil => rfl
  | cons entry rest known =>
      rw [List.lookup_cons, List.lookup_cons, known,
        show (first == entry.1) = (second == entry.1) from BEq.congr_left same]

/-- A look-up that succeeds has found an entry with the same name. -/
theorem mem_of_lookup {symbol : Symbol} {value : A} {entries : List (Symbol × A)}
    (found : entries.lookup symbol = some value) : ∃ key, (key, value) ∈ entries ∧ symbol == key := by
  induction entries with
  | nil => simp at found
  | cons entry rest known =>
      obtain ⟨key, old⟩ := entry
      rw [List.lookup_cons] at found
      cases same : symbol == key with
      | true =>
          rw [same] at found
          obtain rfl := Option.some.inj found
          exact ⟨key, List.mem_cons_self, same⟩
      | false =>
          rw [same] at found
          obtain ⟨other, member, agrees⟩ := known found
          exact ⟨other, List.mem_cons_of_mem _ member, agrees⟩

/-- Two names that strictly increase are different. -/
theorem not_beq_of_lt {first second : Symbol} (less : compare first second = .lt) :
    (first == second) = false := by
  rw [Bool.eq_false_iff]
  intro same
  rw [Symbol.compare_eq_iff.2 (Symbol.beq_iff.1 same)] at less
  cases less

/-- In ascending entries every entry is found under its own name. -/
theorem lookup_of_mem {symbol : Symbol} {entry : Symbol × A} {entries : List (Symbol × A)}
    (ascending : Ascending entries) (member : entry ∈ entries) (same : symbol == entry.1) :
    entries.lookup symbol = some entry.2 := by
  rw [lookup_congr same]
  induction entries with
  | nil => simp at member
  | cons head rest known =>
      obtain ⟨before, ordered⟩ := List.pairwise_cons.1 ascending
      rcases List.mem_cons.1 member with rfl | later
      · rw [List.lookup_cons, BEq.rfl]
      · have different : (entry.1 == head.1) = false := by
          rw [BEq.comm]
          exact not_beq_of_lt (before entry later)
        rw [List.lookup_cons, different]
        exact known ordered later

theorem lookup_map_snd (symbol : Symbol) (image : A → B) (entries : List (Symbol × A)) :
    (entries.map fun entry => (entry.1, image entry.2)).lookup symbol =
      (entries.lookup symbol).map image := by
  induction entries with
  | nil => rfl
  | cons entry rest known =>
      rw [List.map_cons, List.lookup_cons, List.lookup_cons, known]
      cases symbol == entry.1 <;> rfl

/-- A stored value is found under its name, and everything else as before. -/
theorem lookup_put (symbol other : Symbol) (value : A) (entries : List (Symbol × A)) :
    (put symbol value entries).lookup other =
      if other == symbol then some value else entries.lookup other := by
  induction entries with
  | nil =>
      rw [put, List.lookup_cons, List.lookup_nil]
      cases other == symbol <;> rfl
  | cons entry rest known =>
      obtain ⟨key, old⟩ := entry
      rw [put]
      split
      · rw [List.lookup_cons]
        cases other == symbol <;> rfl
      · next same =>
          have names : (symbol == key) = true := Symbol.beq_iff.2 (Symbol.compare_eq_iff.1 same)
          rw [List.lookup_cons, List.lookup_cons, BEq.congr_right names]
          cases other == key <;> rfl
      · next greater =>
          rw [List.lookup_cons, List.lookup_cons, known]
          cases own : other == key with
          | false => rfl
          | true =>
              have different : (other == symbol) = false := by
                rw [BEq.congr_left own]
                exact not_beq_of_lt (Std.OrientedCmp.gt_iff_lt.1 greater)
              rw [different]
              rfl

/-- The keys after an entry is stored are the old ones and perhaps the new one. -/
theorem mem_put {symbol : Symbol} {value : A} {entries : List (Symbol × A)} {entry : Symbol × A}
    (member : entry ∈ put symbol value entries) :
    entry ∈ entries ∨ (entry.2 = value ∧ entry.1 == symbol) := by
  induction entries with
  | nil =>
      simp only [put, List.mem_singleton] at member
      subst member
      exact Or.inr ⟨rfl, BEq.rfl⟩
  | cons head rest known =>
      obtain ⟨key, old⟩ := head
      simp only [put] at member
      split at member
      · rcases List.mem_cons.1 member with rfl | later
        · exact Or.inr ⟨rfl, BEq.rfl⟩
        · exact Or.inl later
      · next same =>
          rcases List.mem_cons.1 member with rfl | later
          · exact Or.inr ⟨rfl, Symbol.beq_iff.2 (Symbol.compare_eq_iff.1 same).symm⟩
          · exact Or.inl (List.mem_cons_of_mem _ later)
      · rcases List.mem_cons.1 member with rfl | later
        · exact Or.inl List.mem_cons_self
        · exact (known later).imp_left (List.mem_cons_of_mem _)

theorem ascending_put {symbol : Symbol} {value : A} {entries : List (Symbol × A)}
    (ascending : Ascending entries) : Ascending (put symbol value entries) := by
  induction entries with
  | nil => exact List.pairwise_singleton _ _
  | cons head rest known =>
      obtain ⟨key, old⟩ := head
      obtain ⟨before, ordered⟩ := List.pairwise_cons.1 ascending
      simp only [put]
      split
      · next less =>
          refine List.pairwise_cons.2 ⟨?_, ascending⟩
          intro entry member
          rcases List.mem_cons.1 member with rfl | later
          · exact less
          · exact Std.TransCmp.lt_trans less (before entry later)
      · exact List.pairwise_cons.2 ⟨before, ordered⟩
      · next greater =>
          refine List.pairwise_cons.2 ⟨?_, known ordered⟩
          intro entry member
          rcases mem_put member with later | ⟨-, same⟩
          · exact before entry later
          · have equal := Symbol.compare_eq_iff.2 (Symbol.beq_iff.1 same)
            exact Std.TransCmp.lt_of_lt_of_eq (Std.OrientedCmp.gt_iff_lt.1 greater)
              (Std.OrientedCmp.eq_symm equal)

/-- Entries are distinct when no two of them have the same name. -/
def Distinct (entries : List (Symbol × A)) : Prop :=
  entries.Pairwise fun first second => (first.1 == second.1) = false

theorem Ascending.distinct {entries : List (Symbol × A)} (ascending : Ascending entries) :
    Distinct entries :=
  ascending.imp not_beq_of_lt

theorem Distinct.perm {first second : List (Symbol × A)} (distinct : Distinct first)
    (same : first.Perm second) : Distinct second :=
  same.pairwise distinct fun different => by rwa [BEq.comm]

/-- Entries with the same names are ascending together. -/
theorem Ascending.congr {left right : List (Symbol × A)}
    (agree : List.Forall₂ (fun one other => one.1 == other.1) left right)
    (ascending : Ascending left) : Ascending right := by
  have names : left.map (fun entry => entry.1.name) = right.map fun entry => entry.1.name := by
    induction agree with
    | nil => rfl
    | cons same rest known =>
        have later := known (List.pairwise_cons.1 ascending).2
        rw [List.map_cons, List.map_cons, later, Symbol.beq_iff.1 same]
  have ordered : (left.map fun entry => entry.1.name).Pairwise (compare · · = .lt) :=
    List.pairwise_map.2 ascending
  rw [names] at ordered
  exact List.pairwise_map.1 ordered

/-- Ascending entries are determined by what they contain. -/
theorem Ascending.eq_of_perm {first second : List (Symbol × A)} (ofFirst : Ascending first)
    (ofSecond : Ascending second) (same : first.Perm second) : first = second := by
  refine same.eq_of_pairwise (fun one other _ _ less greater => ?_) ofFirst ofSecond
  rw [Std.OrientedCmp.gt_iff_lt.2 greater] at less
  cases less

/-- An entry with a new name is added to the entries. -/
theorem put_perm {symbol : Symbol} {value : A} {entries : List (Symbol × A)}
    (absent : ∀ entry ∈ entries, (symbol == entry.1) = false) :
    (put symbol value entries).Perm ((symbol, value) :: entries) := by
  induction entries with
  | nil => exact List.Perm.refl _
  | cons head rest known =>
      obtain ⟨key, old⟩ := head
      obtain ⟨different, later⟩ := List.forall_mem_cons.1 absent
      simp only [put]
      split
      · exact List.Perm.refl _
      · next same =>
          have agrees := Symbol.beq_iff.2 (Symbol.compare_eq_iff.1 same)
          rw [agrees] at different
          cases different
      · exact ((known later).cons (key, old)).trans (List.Perm.swap _ _ _)

theorem ascending_drop {symbol : Symbol} {entries : List (Symbol × A)}
    (ascending : Ascending entries) : Ascending (drop symbol entries) :=
  List.Pairwise.filter _ ascending

/-- A dropped name is not found any more, and everything else as before. -/
theorem lookup_drop (symbol other : Symbol) (entries : List (Symbol × A)) :
    (drop symbol entries).lookup other =
      if other == symbol then none else entries.lookup other := by
  induction entries with
  | nil => simp [drop]
  | cons entry rest known =>
      rw [drop, List.filter_cons, ← drop, List.lookup_cons]
      cases own : entry.1 == symbol with
      | true =>
          rw [Bool.not_true, if_neg Bool.false_ne_true, known, BEq.congr_right own]
          cases other == symbol <;> rfl
      | false =>
          rw [Bool.not_false, if_pos rfl, List.lookup_cons, known]
          cases same : other == entry.1 with
          | false => rfl
          | true => rw [BEq.congr_left same, own]; rfl

/-- Dropping a name that is absent changes nothing. -/
theorem drop_of_absent {symbol : Symbol} {entries : List (Symbol × A)}
    (absent : ∀ entry ∈ entries, (symbol == entry.1) = false) : drop symbol entries = entries := by
  apply List.filter_eq_self.2
  intro entry member
  rw [BEq.comm, absent entry member]
  rfl

theorem lookup_of_absent {symbol : Symbol} {entries : List (Symbol × A)}
    (absent : ∀ entry ∈ entries, (symbol == entry.1) = false) : entries.lookup symbol = none := by
  apply Option.eq_none_iff_forall_not_mem.2
  intro value found
  obtain ⟨key, member, same⟩ := mem_of_lookup found
  rw [absent (key, value) member] at same
  cases same

/-- A look-up among chosen entries finds an entry if it was chosen. -/
theorem lookup_filter {symbol : Symbol} {entry : Symbol × A} {entries : List (Symbol × A)}
    (ascending : Ascending entries) (member : entry ∈ entries) (same : symbol == entry.1)
    (choice : Symbol × A → Bool) :
    (entries.filter choice).lookup symbol = if choice entry then some entry.2 else none := by
  induction entries with
  | nil => simp at member
  | cons head rest known =>
      obtain ⟨before, ordered⟩ := List.pairwise_cons.1 ascending
      rcases List.mem_cons.1 member with rfl | later
      · cases chosen : choice entry with
        | true => rw [List.filter_cons_of_pos chosen, List.lookup_cons, same]; rfl
        | false =>
            rw [List.filter_cons_of_neg (by simp [chosen])]
            apply lookup_of_absent
            intro other inside
            rw [BEq.congr_left same]
            exact not_beq_of_lt (before other (List.mem_filter.1 inside).1)
      · have different : (symbol == head.1) = false := by
          rw [BEq.congr_left same, BEq.comm]
          exact not_beq_of_lt (before entry later)
        rw [← known ordered later]
        cases chosen : choice head with
        | true => rw [List.filter_cons_of_pos chosen, List.lookup_cons, different]
        | false => rw [List.filter_cons_of_neg (by simp [chosen])]

/-- This function stores entries, the first of them last. -/
def sorted : List (Symbol × A) → List (Symbol × A)
  | [] => []
  | (symbol, value) :: rest => put symbol value (sorted rest)

theorem ascending_sorted (entries : List (Symbol × A)) : Ascending (sorted entries) := by
  induction entries with
  | nil => exact List.Pairwise.nil
  | cons entry rest known => exact ascending_put known

theorem Distinct.sorted_perm {entries : List (Symbol × A)} (distinct : Distinct entries) :
    (sorted entries).Perm entries := by
  induction entries with
  | nil => exact List.Perm.refl _
  | cons entry rest known =>
      obtain ⟨absent, later⟩ := List.pairwise_cons.1 distinct
      have others := known later
      refine (put_perm fun other member => ?_).trans (others.cons entry)
      exact absent other (others.mem_iff.1 member)

end Symbol

end DiceOdds
