import ComponentDocs.TypeExpression.Rule
import ComponentDocs.Proofs.Text.Join
import ComponentDocs.Proofs.Text.Trim

/-!
Splitting outside of code spans: the pieces and the delimiters between them are
the text, and a text of blanks and delimiters has blank pieces only.
-/

namespace ComponentDocs.TypeExpression

/-! ## The first piece -/

theorem extendFirst_ne_nil (character : Char) (pieces : List Text) :
    extendFirst character pieces ≠ [] := by
  cases pieces with
  | nil => exact List.cons_ne_nil _ _
  | cons piece pieces => exact List.cons_ne_nil _ _

theorem foldr_extendFirst (text piece : Text) (pieces : List Text) :
    text.foldr extendFirst (piece :: pieces) = (text ++ piece) :: pieces := by
  induction text with
  | nil =>
      rfl
  | cons character rest inductionHypothesis =>
      rw [List.foldr_cons, inductionHypothesis]
      rfl

theorem join_extendFirst (separator : Text) (character : Char)
    {pieces : List Text} (nonempty : pieces ≠ []) :
    Text.join separator (extendFirst character pieces) =
      character :: Text.join separator pieces := by
  rcases pieces with _ | ⟨first, _ | ⟨second, others⟩⟩
  · exact absurd rfl nonempty
  · rfl
  · rfl

theorem length_extendFirst (character : Char) {pieces : List Text}
    (nonempty : pieces ≠ []) :
    (extendFirst character pieces).length = pieces.length := by
  cases pieces with
  | nil => exact absurd rfl nonempty
  | cons piece pieces => rfl

/-! ## Pieces outside of code spans -/

theorem splitOutsideSpans_ne_nil (delimiter : Char) (inSpan : Bool)
    (text : Text) :
    splitOutsideSpans delimiter inSpan text ≠ [] := by
  fun_cases splitOutsideSpans delimiter inSpan text with
  | case1 => exact List.cons_ne_nil _ _
  | case2 character rest isTick => exact extendFirst_ne_nil character _
  | case3 character rest notTick isSplit => exact List.cons_ne_nil _ _
  | case4 character rest notTick notSplit => exact extendFirst_ne_nil character _

section Delimiter

variable {delimiter : Char}

/-- Splitting loses nothing but the delimiters. -/
theorem join_splitOutsideSpans (inSpan : Bool) (text : Text) :
    Text.join [delimiter] (splitOutsideSpans delimiter inSpan text) = text := by
  fun_induction splitOutsideSpans delimiter inSpan text with
  | case1 =>
      rfl
  | case2 inSpan character rest isTick inductionHypothesis =>
      rw [join_extendFirst _ _ (splitOutsideSpans_ne_nil _ _ _),
        inductionHypothesis]
  | case3 inSpan character rest notTick isSplit inductionHypothesis =>
      obtain ⟨isDelimiter, -⟩ : character = delimiter ∧ inSpan = false := by
        simpa using isSplit
      obtain ⟨first, others, shape⟩ := List.exists_cons_of_ne_nil
        (splitOutsideSpans_ne_nil delimiter inSpan rest)
      rw [shape] at inductionHypothesis
      rw [shape, Text.join_cons_cons, inductionHypothesis, isDelimiter]
      rfl
  | case4 inSpan character rest notTick notSplit inductionHypothesis =>
      rw [join_extendFirst _ _ (splitOutsideSpans_ne_nil _ _ _),
        inductionHypothesis]

theorem length_splitOutsideSpans {text : Text} (noTick : tick ∉ text) :
    (splitOutsideSpans delimiter false text).length =
      text.count delimiter + 1 := by
  induction text with
  | nil =>
      rfl
  | cons character rest inductionHypothesis =>
      obtain ⟨notTick, noTickRest⟩ := not_or.mp (mt List.mem_cons.mpr noTick)
      have others := inductionHypothesis noTickRest
      have outside : ¬ (character == tick) = true := by
        simpa using Ne.symm notTick
      rw [splitOutsideSpans, if_neg outside]
      by_cases isDelimiter : character = delimiter
      · have isSplit : (character == delimiter && !false) = true := by
          simpa using isDelimiter
        rw [if_pos isSplit, List.length_cons, others, isDelimiter,
          List.count_cons_self]
      · have notSplit : ¬ (character == delimiter && !false) = true := by
          simpa using isDelimiter
        rw [if_neg notSplit,
          length_extendFirst _ (splitOutsideSpans_ne_nil _ _ _), others,
          List.count_cons_of_ne isDelimiter]

end Delimiter

/-! ## Blank pieces -/

theorem isBlank_of_mem_pieces {text : Text}
    (blankOrSlash : ∀ character ∈ text,
      character = '/' ∨ Text.isBlank character = true) :
    ∀ piece ∈ slashPieces text,
      ∀ character ∈ piece, Text.isBlank character = true := by
  unfold slashPieces
  induction text with
  | nil =>
      simp [splitOutsideSpans]
  | cons first rest inductionHypothesis =>
      obtain ⟨firstBlank, restBlank⟩ := List.forall_mem_cons.mp blankOrSlash
      have others := inductionHypothesis restBlank
      have notTick : ¬ (first == tick) = true := by
        rcases firstBlank with rfl | blank
        · decide
        · intro isTick
          rw [eq_of_beq isTick] at blank
          exact absurd blank (by decide)
      rw [splitOutsideSpans, if_neg notTick]
      by_cases isSlash : first = '/'
      · have isSplit : (first == '/' && !false) = true := by
          simpa using isSlash
        rw [if_pos isSplit]
        intro piece member character inPiece
        rcases List.mem_cons.mp member with rfl | isLater
        · exact absurd inPiece List.not_mem_nil
        · exact others piece isLater character inPiece
      · have notSplit : ¬ (first == '/' && !false) = true := by
          simpa using isSlash
        obtain ⟨next, further, shape⟩ := List.exists_cons_of_ne_nil
          (splitOutsideSpans_ne_nil '/' false rest)
        rw [if_neg notSplit, shape]
        rw [shape] at others
        intro piece member character inPiece
        rcases List.mem_cons.mp member with rfl | isLater
        · rcases List.mem_cons.mp inPiece with rfl | inNext
          · exact firstBlank.resolve_left isSlash
          · exact others next List.mem_cons_self character inNext
        · exact others piece (List.mem_cons_of_mem _ isLater) character inPiece

/-- There is no alternative between slashes exactly when a text holds only
slashes and blanks. -/
theorem slashAlternatives_eq_nil_iff {text : Text} :
    slashAlternatives text = [] ↔
      ∀ character ∈ text,
        character = '/' ∨ Text.isBlank character = true := by
  have blankPieces :
      slashAlternatives text = [] ↔
        ∀ piece ∈ slashPieces text,
          ∀ character ∈ piece, Text.isBlank character = true := by
    simp [slashAlternatives, Text.trim_eq_nil_iff]
  rw [blankPieces]
  constructor
  · intro blank character member
    have whole : Text.join ['/'] (slashPieces text) = text :=
      join_splitOutsideSpans false text
    rw [← whole] at member
    rcases Text.mem_join member with isSlash | ⟨piece, isPiece, inPiece⟩
    · exact .inl (List.mem_singleton.mp isSlash)
    · exact .inr (blank piece isPiece character inPiece)
  · exact isBlank_of_mem_pieces

end ComponentDocs.TypeExpression
