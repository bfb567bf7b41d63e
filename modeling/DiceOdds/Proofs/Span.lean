import DiceOdds.Proofs.Lexing

/-
This file finds the lexemes of a text again: each is the part of the text that its span covers.
-/

namespace DiceOdds

theorem byteCount_cons (character : Char) (rest : List Char) :
    byteCount (character :: rest) = character.utf8Size + byteCount rest :=
  rfl

theorem byteCount_pos {text : List Char} (nonempty : text ≠ []) : 0 < byteCount text := by
  cases text with
  | nil => exact absurd rfl nonempty
  | cons character rest =>
      have := character.utf8Size_pos
      rw [byteCount_cons]
      omega

theorem byteCount_append (first second : List Char) :
    byteCount (first ++ second) = byteCount first + byteCount second := by
  induction first with
  | nil => simp [byteCount]
  | cons character first known =>
      rw [List.cons_append, byteCount_cons, byteCount_cons, known, Nat.add_assoc]

namespace TokenRule

theorem digits?_begins {text digits : List Char} (found : digits? text = some digits) :
    digits ≠ [] ∧ digits <+: text := by
  unfold digits? at found
  split at found
  · cases found
  · next first rest taken =>
      cases found
      refine ⟨List.cons_ne_nil first rest, ?_⟩
      rw [← taken]
      exact List.takeWhile_prefix _

theorem keptSuffix_begins (text : List Char) : keptSuffix text <+: text := by
  unfold keptSuffix
  split
  · exact List.prefix_rfl
  · next letter rest =>
      split
      · next digits _ found => exact (List.prefix_cons_inj letter).2 (digits?_begins found).2
      · exact List.nil_prefix

theorem dice?_begins {text matched : List Char} (found : dice? text = some matched) :
    matched ≠ [] ∧ matched <+: text := by
  unfold dice? at found
  dsimp only at found
  split at found
  · next rest dropped =>
      obtain ⟨sides, ofSides, rfl⟩ := Option.map_eq_some_iff.1 found
      have counted : text.takeWhile Char.isDigit ++ 'd' :: rest = text := by
        rw [← dropped, List.takeWhile_append_dropWhile]
      have sided : sides ++ rest.drop sides.length = rest :=
        List.prefix_iff_eq_append.1 (digits?_begins ofSides).2
      have ofRest : sides ++ keptSuffix (rest.drop sides.length) <+: rest := by
        nth_rewrite 2 [← sided]
        exact (List.prefix_append_right_inj sides).2 (keptSuffix_begins _)
      refine ⟨by simp, ?_⟩
      conv => rhs; rw [← counted]
      exact (List.prefix_append_right_inj _).2 ((List.prefix_cons_inj 'd').2 ofRest)
  · cases found

theorem marked?_begins {mark : Char} {text matched : List Char}
    (found : marked? mark text = some matched) : matched ≠ [] ∧ matched <+: text := by
  unfold marked? at found
  split at found
  · next first second rest =>
      split at found
      · cases found
        refine ⟨List.cons_ne_nil _ _, ?_⟩
        rw [List.prefix_cons_inj, List.prefix_cons_inj]
        exact List.takeWhile_prefix continuesName
      · cases found
  · cases found

/-- Every rule matches a beginning of the text that is not empty. -/
theorem longest?_begins {rule : TokenRule} {text matched : List Char} (member : rule ∈ all)
    (found : rule.longest? text = some matched) : matched ≠ [] ∧ matched <+: text := by
  cases rule with
  | integer => exact digits?_begins found
  | dice => exact dice?_begins found
  | symbol mark => exact marked?_begins found
  | name => exact marked?_begins found
  | fixed word token =>
      have visible : ∀ other ∈ all, ∀ (also : List Char) (made : Token), other = .fixed also made →
          also ≠ [] := by
        simp [all, fixedRules]
      change (if word.isPrefixOf text then some word else none) = some matched at found
      split at found
      · next isPrefix =>
          cases found
          exact ⟨visible _ member _ _ rfl, List.isPrefixOf_iff_prefix.1 isPrefix⟩
      · cases found

end TokenRule

namespace Lexeme

theorem first_start (start : Nat) (character : Char) (rest : List Char) :
    (first start character rest).start = start := by
  unfold first
  split <;> rfl

/-- The first lexeme takes a beginning of the text that is not empty. -/
theorem first_begins (start : Nat) (character : Char) (rest : List Char) :
    (first start character rest).text ≠ [] ∧
      (first start character rest).text <+: character :: rest := by
  unfold first
  split
  · exact ⟨List.cons_ne_nil _ _, by simp⟩
  · next rule matched found =>
      obtain ⟨member, matches'⟩ := TokenRule.mem_of_longestOf found
      exact TokenRule.longest?_begins member matches'

theorem first_append_drop (start : Nat) (character : Char) (rest : List Char) :
    let lexeme := first start character rest
    lexeme.text ++ rest.drop (lexeme.text.length - 1) = character :: rest := by
  obtain ⟨nonempty, begins⟩ := first_begins start character rest
  have whole := List.prefix_iff_eq_append.1 begins
  rwa [List.drop_cons (List.length_pos_iff.2 nonempty)] at whole

/-- A lexeme covers its span when the text has the text of the lexeme from its start to its stop. -/
def Covers (lexeme : Lexeme) (text : List Char) : Prop :=
  ∃ before after, text = before ++ (lexeme.text ++ after) ∧ lexeme.start = byteCount before ∧
    lexeme.stop = byteCount (before ++ lexeme.text)

/-- What the scan of a rest finds lies behind the bytes in front of this rest. -/
theorem scan_split (start : Nat) (text : List Char) :
    ∀ lexeme ∈ scan start text, ∃ before after, text = before ++ (lexeme.text ++ after) ∧
      lexeme.start = start + byteCount before := by
  have pass (start : Nat) (skipped rest : List Char) (lexeme : Lexeme)
      (known : ∃ before after, rest = before ++ (lexeme.text ++ after) ∧
        lexeme.start = start + byteCount skipped + byteCount before) :
      ∃ before after, skipped ++ rest = before ++ (lexeme.text ++ after) ∧
        lexeme.start = start + byteCount before := by
    obtain ⟨before, after, rfl, starts⟩ := known
    refine ⟨skipped ++ before, after, by rw [List.append_assoc], ?_⟩
    rw [starts, byteCount_append, Nat.add_assoc]
  fun_induction scan start text with
  | case1 start => simp
  | case2 start character rest blank known =>
      intro lexeme member
      exact pass start [character] rest lexeme (known lexeme member)
  | case3 start character rest visible comment skipped known =>
      intro lexeme member
      have split : character :: skipped ++ rest.drop skipped.length = character :: rest :=
        congrArg (character :: ·) (List.prefix_iff_eq_append.1 (List.takeWhile_prefix _))
      rw [← split]
      refine pass start (character :: skipped) _ lexeme ?_
      have found := known lexeme member
      rw [Nat.add_assoc] at found
      exact found
  | case4 start character rest visible word lexeme known =>
      have split : lexeme.text ++ rest.drop (lexeme.text.length - 1) = character :: rest :=
        first_append_drop start character rest
      have stops : lexeme.stop = start + byteCount lexeme.text :=
        congrArg (· + byteCount lexeme.text) (first_start start character rest)
      rw [← split]
      refine List.forall_mem_cons.2 ⟨⟨[], _, rfl, first_start start character rest⟩, ?_⟩
      intro other member
      refine pass start lexeme.text _ other ?_
      rw [← stops]
      exact known other member

theorem lexemes_cover (text : List Char) : ∀ lexeme ∈ lexemes text, lexeme.Covers text := by
  intro lexeme member
  obtain ⟨before, after, split, starts⟩ := scan_split 0 text lexeme member
  rw [Nat.zero_add] at starts
  refine ⟨before, after, split, starts, ?_⟩
  rw [byteCount_append, ← starts]
  rfl

end Lexeme

end DiceOdds
