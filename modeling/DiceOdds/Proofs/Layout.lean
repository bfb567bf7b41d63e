import DiceOdds.Proofs.MaximalMunch
import DiceOdds.Statement.Source

/-
This file shows that layout has no meaning. Blanks and whole comments can be put at the ends of tokens,
and then the text has the same tokens, reads as the same statement or has the same error elsewhere.
-/

namespace DiceOdds

/-- Layout has blanks, and comments together with the ends of their lines. -/
inductive Layout : List Char → Prop where
  | nil : Layout []
  | blank {character : Char} {rest : List Char} (blank : isBlank character = true)
      (later : Layout rest) : Layout (character :: rest)
  | comment {body rest : List Char} (inLine : '\n' ∉ body) (later : Layout rest) :
      Layout ('#' :: (body ++ '\n' :: rest))

/-- A text is spread out by layout at its boundaries. -/
inductive Spread (boundary : Nat → Prop) : Nat → List Char → List Char → Prop where
  | nil {start : Nat} : Spread boundary start [] []
  | keep {start : Nat} (character : Char) {text more : List Char}
      (later : Spread boundary (start + character.utf8Size) text more) :
      Spread boundary start (character :: text) (character :: more)
  | insert {start : Nat} {layout text more : List Char} (allowed : boundary start)
      (isLayout : Layout layout) (later : Spread boundary start text more) :
      Spread boundary start text (layout ++ more)

/-- The boundaries of a text are the bytes where its tokens start and stop. -/
def Boundary (text : List Char) (position : Nat) : Prop :=
  ∃ lexeme ∈ lexemes text, position = lexeme.start ∨ position = lexeme.stop

theorem Layout.hidden {layout : List Char} (isLayout : Layout layout) :
    ∀ character ∈ layout.head?, ¬IsVisible character := by
  cases isLayout with
  | nil => simp
  | blank blank later =>
      rintro _ ⟨⟩ ⟨notBlank, -⟩
      rw [blank] at notBlank
      cases notBlank
  | comment inLine later =>
      rintro _ ⟨⟩ ⟨-, noComment⟩
      exact noComment rfl

theorem Layout.append {layout other : List Char} (isLayout : Layout layout) (also : Layout other) :
    Layout (layout ++ other) := by
  induction isLayout with
  | nil => exact also
  | blank blank later known => exact .blank blank known
  | comment inLine later known =>
      rw [List.cons_append, List.append_assoc, List.cons_append]
      exact .comment inLine known

/-- Layout in front of a gap makes a longer gap. -/
theorem Layout.gap {layout gap back : List Char} (isLayout : Layout layout) (isGap : Gap gap back) :
    Gap (layout ++ gap) back := by
  induction isLayout with
  | nil => exact isGap
  | blank blank later known => exact .blank blank known
  | comment inLine later known =>
      rw [List.cons_append, List.append_assoc, List.cons_append]
      refine .comment inLine ?_ (.blank rfl known)
      rintro _ ⟨⟩
      rfl

theorem Layout.isGap {layout : List Char} (isLayout : Layout layout) (back : List Char) :
    Gap layout back := by
  have behind := isLayout.gap (Gap.nil : Gap [] back)
  rwa [List.append_nil] at behind

theorem Gap.append {gap inner back : List Char} (isGap : Gap gap (inner ++ back))
    (inside : Gap inner back) : Gap (gap ++ inner) back := by
  generalize whole : inner ++ back = behind at isGap
  induction isGap with
  | nil => exact inside
  | blank blank rest known => exact .blank blank (known whole)
  | comment inLine ended rest known =>
      subst whole
      rw [List.cons_append, List.append_assoc]
      refine .comment inLine ?_ (known rfl)
      rwa [List.append_assoc]

/-- In front of a visible character no comment of a gap is still open. -/
theorem Gap.in_front {gap back : List Char} {first : Char} (isGap : Gap gap (first :: back))
    (visible : IsVisible first) (other : List Char) : Gap gap other := by
  generalize whole : first :: back = behind at isGap
  induction isGap with
  | nil => exact .nil
  | blank blank rest known => exact .blank blank (known whole)
  | @comment body gap _ inLine ended rest known =>
      subst whole
      refine .comment inLine ?_ (known rfl)
      cases gap with
      | nil =>
          obtain rfl : first = '\n' := ended first rfl
          cases visible.1
      | cons next gap => exact fun character atHead => ended character atHead

namespace Spread

variable {boundary : Nat → Prop} {start : Nat} {text more front back : List Char}

theorem refl (boundary : Nat → Prop) (start : Nat) (text : List Char) :
    Spread boundary start text text := by
  induction text generalizing start with
  | nil => exact .nil
  | cons character text known => exact .keep character (known _)

theorem append {other behind : List Char} (spread : Spread boundary start front other)
    (later : Spread boundary (start + byteCount front) back behind) :
    Spread boundary start (front ++ back) (other ++ behind) := by
  induction spread with
  | nil => exact later
  | @keep start character text more _ known =>
      rw [byteCount_cons, ← Nat.add_assoc] at later
      exact .keep character (known later)
  | insert allowed isLayout _ known =>
      rw [List.append_assoc]
      exact .insert allowed isLayout (known later)

/-- Layout can stand in front where it is allowed or empty. -/
theorem in_front {layout : List Char} (isLayout : Layout layout)
    (allowed : layout = [] ∨ boundary start) (later : Spread boundary start text more) :
    Spread boundary start text (layout ++ more) := by
  rcases allowed with rfl | allowed
  · exact later
  · exact .insert allowed isLayout later

/-- Only layout can be in front of the first character that is kept. -/
theorem exists_layout (spread : Spread boundary start text more) : ∃ layout rest,
    more = layout ++ rest ∧ Layout layout ∧ (layout = [] ∨ boundary start) ∧
      (text = [] ∧ rest = [] ∨ ∃ character kept behind, text = character :: kept ∧
        rest = character :: behind ∧ Spread boundary (start + character.utf8Size) kept behind) := by
  induction spread with
  | nil => exact ⟨[], [], rfl, .nil, .inl rfl, .inl ⟨rfl, rfl⟩⟩
  | keep character later known =>
      exact ⟨[], _, rfl, .nil, .inl rfl, .inr ⟨character, _, _, rfl, rfl, later⟩⟩
  | insert allowed isLayout later known =>
      obtain ⟨inner, rest, rfl, ofInner, -, kept⟩ := known
      exact ⟨_, rest, (List.append_assoc _ _ _).symm, isLayout.append ofInner, .inr allowed, kept⟩

/-- Between two boundaries nothing is inserted. -/
theorem split (spread : Spread boundary start (front ++ back) more)
    (clear : ∀ position, boundary position → start < position →
      start + byteCount front ≤ position) : ∃ layout rest, more = layout ++ (front ++ rest) ∧
      Layout layout ∧ (layout = [] ∨ front ≠ [] ∧ boundary start) ∧
      Spread boundary (start + byteCount front) back rest := by
  induction front generalizing start more with
  | nil => exact ⟨[], more, rfl, .nil, .inl rfl, spread⟩
  | cons character front known =>
      obtain ⟨layout, rest, rfl, isLayout, allowed, ⟨impossible, -⟩ | kept⟩ := spread.exists_layout
      · cases impossible
      · obtain ⟨_, _, behind, same, rfl, later⟩ := kept
        obtain ⟨rfl, rfl⟩ := List.cons.inj same
        rw [byteCount_cons, ← Nat.add_assoc] at clear ⊢
        have positive := character.utf8Size_pos
        obtain ⟨inner, last, rfl, -, inside, ended⟩ := known later fun position isBoundary behind =>
          clear position isBoundary (by omega)
        obtain rfl : inner = [] := by
          rcases inside with empty | ⟨nonempty, isBoundary⟩
          · exact empty
          · have beyond := clear _ isBoundary (by omega)
            have := byteCount_pos nonempty
            omega
        exact ⟨layout, last, rfl, isLayout, allowed.imp_right fun isBoundary =>
          ⟨List.cons_ne_nil _ _, isBoundary⟩, ended⟩

/-- The end of a text is spread out by layout alone. -/
theorem of_nil (spread : Spread boundary start [] more) :
    Layout more ∧ (more = [] ∨ boundary start) := by
  obtain ⟨layout, rest, rfl, isLayout, allowed, ⟨-, rfl⟩ | ⟨_, _, _, impossible, -⟩⟩ :=
    spread.exists_layout
  · rw [List.append_nil]
    exact ⟨isLayout, allowed⟩
  · cases impossible

/-- A visible word in front of a spread text stands in front of the text itself. -/
theorem begins (spread : Spread boundary start text more) {word : List Char}
    (visible : ∀ character ∈ word, IsVisible character) (begins : word <+: more) :
    word <+: text := by
  induction spread generalizing word with
  | nil => exact begins
  | keep character later known =>
      cases word with
      | nil => exact List.nil_prefix
      | cons first rest =>
          obtain ⟨rfl, tail⟩ := List.cons_prefix_cons.1 begins
          exact List.cons_prefix_cons.2 ⟨rfl, known (List.forall_mem_cons.1 visible).2 tail⟩
  | @insert start layout text more allowed isLayout later known =>
      cases layout with
      | nil => exact known visible begins
      | cons hidden layout =>
          cases word with
          | nil => exact List.nil_prefix
          | cons first rest =>
              obtain ⟨rfl, -⟩ := List.cons_prefix_cons.1 begins
              exact absurd (visible first List.mem_cons_self) (isLayout.hidden first rfl)

end Spread

/-- The word in front of a text stays what it is when the rest is spread out. -/
theorem Takes.spread {boundary : Nat → Prop} {start : Nat} {text more word : List Char} {token : Token}
    (takes : Takes text word token) (begins : word <+: more)
    (spread : Spread boundary start text more) : Takes more word token := by
  cases takes with
  | word longest makes =>
      refine .word ⟨longest.member, longest.describes, begins, ?_⟩ makes
      intro other member also describes alsoBegins
      exact longest.longer other member also describes
        (spread.begins (describes.visible member).2 alsoBegins)
  | stray visible unmatched =>
      obtain ⟨rest, rfl⟩ := begins
      exact .stray visible fun rule member word describes alsoBegins =>
        unmatched rule member word describes
          (spread.begins (describes.visible member).2 alsoBegins)

/-- The first word of a text and the gap in front of it are found again when the text is spread out. -/
theorem Spread.exists_word {boundary : Nat → Prop} {start : Nat} {gap word rest more : List Char}
    {token : Token} (spread : Spread boundary start (gap ++ (word ++ rest)) more)
    (skipped : Gap gap (word ++ rest)) (takes : Takes (word ++ rest) word token)
    (clear : ∀ position, boundary position → start < position →
      position = start + byteCount gap ∨ start + byteCount gap + byteCount word ≤ position) :
    ∃ ahead behind, more = ahead ++ (word ++ behind) ∧ Gap ahead (word ++ behind) ∧
      Takes (word ++ behind) word token ∧ Spread boundary start gap ahead ∧
      Spread boundary (start + byteCount gap + byteCount word) rest behind := by
  obtain ⟨layout, afterGap, rfl, isLayout, allowed, fromWord⟩ :=
    spread.split fun position isBoundary beyond => by
      have := clear position isBoundary beyond
      omega
  obtain ⟨inner, behind, rfl, isInner, allowedInner, fromRest⟩ :=
    fromWord.split fun position isBoundary beyond => by
      have := clear position isBoundary (by omega)
      omega
  have words := (Spread.refl boundary (start + byteCount gap) word).append fromRest
  refine ⟨layout ++ (gap ++ inner), behind, by simp only [List.append_assoc], ?_,
    takes.spread (List.prefix_append _ _) words, ?_, fromRest⟩
  · refine isLayout.gap (Gap.append ?_ (isInner.isGap _))
    obtain ⟨nonempty, visible⟩ := takes.visible
    cases word with
    | nil => exact absurd rfl nonempty
    | cons first word => exact skipped.in_front (visible first List.mem_cons_self) _
  · have ended : Spread boundary (start + byteCount gap) [] (inner ++ []) :=
      .in_front isInner (allowedInner.imp_right And.right) .nil
    have whole := (Spread.refl boundary start gap).append ended
    rw [List.append_nil, List.append_nil] at whole
    exact whole.in_front isLayout (allowed.imp_right And.right)

/-- A position moves with the text around it when the parts in front of it and behind it are spread. -/
def Moved (boundary : Nat → Prop) (start target : Nat) (text more : List Char)
    (position moved : Nat) : Prop :=
  ∃ front back other behind, text = front ++ back ∧ more = other ++ behind ∧
    position = start + byteCount front ∧ moved = target + byteCount other ∧
    Spread boundary start front other ∧ Spread boundary position back behind

/-- A lexeme moves as a whole. -/
structure Lexeme.Moves (boundary : Nat → Prop) (start target : Nat) (text more : List Char)
    (lexeme other : Lexeme) : Prop where
  sameToken : lexeme.token = other.token
  sameText : lexeme.text = other.text
  moved : Moved boundary start target text more lexeme.start other.start

/-- What moves with the end of a text moves with the whole text. -/
theorem Lexeme.Moves.behind {boundary : Nat → Prop} {start target : Nat}
    {front other text more : List Char} {lexeme image : Lexeme}
    (spread : Spread boundary start front other)
    (moves : lexeme.Moves boundary (start + byteCount front) (target + byteCount other) text more
      image) : lexeme.Moves boundary start target (front ++ text) (other ++ more) image where
  sameToken := moves.sameToken
  sameText := moves.sameText
  moved := by
    obtain ⟨inner, back, image, behind, rfl, rfl, starts, moved, before, after⟩ := moves.moved
    refine ⟨front ++ inner, back, other ++ image, behind, by rw [List.append_assoc],
      by rw [List.append_assoc], ?_, ?_, spread.append before, after⟩
    · rw [starts, byteCount_append, Nat.add_assoc]
    · rw [moved, byteCount_append, Nat.add_assoc]

/-- A text that is spread out at the boundaries of its tokens is tokenized alike. -/
theorem Tokenized.spread {boundary : Nat → Prop} {start : Nat} {text : List Char} {found : List Lexeme}
    (tokenized : Tokenized start text found) {more : List Char}
    (spread : Spread boundary start text more) (target : Nat)
    (bounded : ∀ position, boundary position → start < position →
      ∃ lexeme ∈ found, position = lexeme.start ∨ position = lexeme.stop) :
    ∃ others, Tokenized target more others ∧
      List.Forall₂ (Lexeme.Moves boundary start target text more) found others := by
  induction tokenized generalizing target more with
  | @done start gap skipped =>
      have clear (position : Nat) (isBoundary : boundary position) : position ≤ start := by
        by_contra beyond
        obtain ⟨lexeme, impossible, -⟩ := bounded position isBoundary (by omega)
        cases impossible
      rw [← List.append_nil gap] at spread
      obtain ⟨layout, rest, rfl, isLayout, -, ended⟩ := spread.split fun position isBoundary beyond =>
        absurd (clear position isBoundary) (by omega)
      obtain ⟨ofRest, allowed⟩ := ended.of_nil
      refine ⟨[], .done (isLayout.gap ?_), .nil⟩
      rcases allowed with rfl | allowed
      · rwa [List.append_nil]
      · obtain rfl : gap = [] := by
          by_contra nonempty
          have := byteCount_pos nonempty
          have := clear _ allowed
          omega
        exact ofRest.isGap []
  | @next start gap word rest token found skipped takes later known =>
      -- A boundary belongs to the first word, or it lies behind this one.
      have placed (position : Nat) (isBoundary : boundary position) (beyond : start < position) :
          position = start + byteCount gap ∨ position = start + byteCount gap + byteCount word ∨
            ∃ lexeme ∈ found, position = lexeme.start ∨ position = lexeme.stop := by
        obtain ⟨lexeme, member, same⟩ := bounded position isBoundary beyond
        rcases List.mem_cons.1 member with rfl | behind
        · exact same.imp_right .inl
        · exact .inr (.inr ⟨lexeme, behind, same⟩)
      have ordered := later.start_le
      have beyond (lexeme : Lexeme) (member : lexeme ∈ found) (position : Nat)
          (same : position = lexeme.start ∨ position = lexeme.stop) :
          start + byteCount gap + byteCount word ≤ position := by
        have starts := ordered lexeme member
        rcases same with rfl | rfl
        · exact starts
        · exact Nat.le_trans starts (Nat.le_add_right _ _)
      obtain ⟨ahead, behind, rfl, isGap, again, aheadSpread, fromRest⟩ :=
        spread.exists_word skipped takes fun position isBoundary after => by
          rcases placed position isBoundary after with first | rfl | ⟨lexeme, member, same⟩
          · exact .inl first
          · exact .inr (Nat.le_refl _)
          · exact .inr (beyond lexeme member position same)
      obtain ⟨others, alike, related⟩ := known fromRest (target + byteCount ahead + byteCount word)
        fun position isBoundary after => by
          rcases placed position isBoundary (by omega) with first | second | known
          · omega
          · omega
          · exact known
      have words := (Spread.refl boundary (start + byteCount gap) word).append fromRest
      refine ⟨_, .next isGap again alike, .cons ?_ (related.imp fun lexeme other moves => ?_)⟩
      · exact ⟨rfl, rfl, gap, word ++ rest, ahead, word ++ behind, rfl, rfl, rfl, rfl, aheadSpread,
          words⟩
      · have afterGap : lexeme.Moves boundary (start + byteCount gap) (target + byteCount ahead)
            (word ++ rest) (word ++ behind) other :=
          moves.behind (Spread.refl boundary _ word)
        exact afterGap.behind aheadSpread

/-- An error is shifted when it says the same about the same text elsewhere. -/
structure SourceError.Shifted (text more : List Char) (first second : SourceError) : Prop where
  sameProblem : first.problem = second.problem
  sameText : first.text = second.text
  moved : Moved (Boundary text) 0 0 text more first.start second.start
  firstStop : first.stop = first.start + byteCount first.text
  secondStop : second.stop = second.start + byteCount second.text

/-- The end of a text moves as well. -/
theorem moved_end {boundary : Nat → Prop} {text more : List Char}
    (spread : Spread boundary 0 text more) :
    Moved boundary 0 0 text more (byteCount text) (byteCount more) :=
  ⟨text, [], more, [], (List.append_nil _).symm, (List.append_nil _).symm, (Nat.zero_add _).symm,
    (Nat.zero_add _).symm, spread, .nil⟩

/-- Errors at the same obstacle are shifted like their lexemes. -/
theorem SourceError.ofObstacle_shifted {text more : List Char} {found others : List Lexeme}
    (spread : Spread (Boundary text) 0 text more)
    (moves : List.Forall₂ (Lexeme.Moves (Boundary text) 0 0 text more) found others)
    (obstacle : Obstacle) :
    Shifted text more (ofObstacle text found obstacle) (ofObstacle more others obstacle) := by
  have left := List.forall₂_drop (found.length - obstacle.rest.length) moves
  unfold ofObstacle
  rw [← moves.length_eq]
  generalize found.drop (found.length - obstacle.rest.length) = rest at left
  generalize others.drop (found.length - obstacle.rest.length) = further at left
  cases left with
  | nil => exact ⟨rfl, rfl, moved_end spread, rfl, rfl⟩
  | cons first _ =>
      refine ⟨?_, first.sameText, first.moved, rfl, rfl⟩
      dsimp only
      rw [first.sameToken]

/-- Layout does not change what a text means. A text that is spread out at the boundaries of its
tokens has the same tokens, read from the same words, and each of them moves with the text around it.
Both texts are read as the same statement, or they are refused with the same problem at the same word,
which is shifted by the layout in front of it. -/
theorem layout_keeps_meaning {text more : List Char} (spread : Spread (Boundary text) 0 text more) :
    tokensOf text = tokensOf more ∧
    List.Forall₂ (Lexeme.Moves (Boundary text) 0 0 text more) (lexemes text) (lexemes more) ∧
    Agree (SourceError.Shifted text more) Eq (Statement.ofSource text) (Statement.ofSource more) := by
  obtain ⟨others, tokenized, moves⟩ :=
    (Tokenized.scan 0 text).spread spread 0 fun position isBoundary _ => isBoundary
  obtain rfl : others = lexemes more := tokenized.eq_scan
  have tokens : tokensOf text = tokensOf more := by
    rw [tokensOf, tokensOf, ← List.forall₂_eq_eq_eq, List.forall₂_map_left_iff,
      List.forall₂_map_right_iff]
    exact moves.imp fun lexeme other moved => moved.sameToken
  refine ⟨tokens, moves, ?_⟩
  change Agree _ _ ((Statement.read (tokensOf text)).mapError _)
    ((Statement.read (tokensOf more)).mapError _)
  rw [tokens]
  cases Statement.read (tokensOf more) with
  | error obstacle => exact .error (SourceError.ofObstacle_shifted spread moves obstacle)
  | ok statement => exact .ok rfl

/-- A blank and a comment can be put around the sign of a sum. -/
theorem layout_keeps_meaning_sum :
    let text := ['1', '+', '2']
    let more := ['1', ' ', '+', '#', '\n', '2']
    Spread (Boundary text) 0 text more ∧ tokensOf text = tokensOf more ∧
      ∃ statement, Statement.ofSource more = .ok statement := by
  intro text more
  have found : lexemes text = [⟨.integer 1, 0, ['1']⟩, ⟨.operator .add, 1, ['+']⟩,
      ⟨.integer 2, 2, ['2']⟩] := by
    cbv
  have first : Boundary text 1 := ⟨_, by rw [found]; exact List.mem_cons_self, .inr rfl⟩
  have second : Boundary text 2 :=
    ⟨_, by rw [found]; exact List.mem_cons_of_mem _ List.mem_cons_self, .inr rfl⟩
  have spread : Spread (Boundary text) 0 text more := by
    have blank : Layout [' '] := .blank rfl .nil
    have comment : Layout ('#' :: ([] ++ ['\n'])) := .comment List.not_mem_nil .nil
    have behindSign := Spread.insert second comment (.refl _ _ ['2'])
    have behindNumber := Spread.insert first blank (.keep '+' behindSign)
    exact .keep '1' behindNumber
  obtain ⟨tokens, -, agree⟩ := layout_keeps_meaning spread
  obtain ⟨statement, read⟩ : ∃ statement, Statement.ofSource text = .ok statement := ⟨_, by cbv⟩
  exact ⟨spread, tokens, agree.exists_iff.1 ⟨statement, read⟩⟩

end DiceOdds
