import ComponentDocs.Proofs.TypeExpression.Span

/-!
How deep the rules go into an expression. Splitting at slashes loses nothing,
and no piece, judged on its own, has a slash left outside of code spans. So the
rule for slashes is not entered again from within itself: to bring each piece
to its form by all the rules takes two levels, however the text looks.
-/

namespace ComponentDocs

namespace Text

/-- Joining several texts makes each of them longer. -/
theorem length_lt_length_join (separator : Char) {texts : List Text}
    (several : 1 < texts.length) {text : Text} (member : text ∈ texts) :
    text.length < (join [separator] texts).length := by
  rcases texts with _ | ⟨first, _ | ⟨second, others⟩⟩
  · cases member
  · exact absurd several (Nat.lt_irrefl 1)
  · have whole := congrArg List.length
      (join_cons_cons [separator] first second others)
    rw [List.length_append, List.length_append, List.length_singleton] at whole
    rcases List.mem_cons.mp member with rfl | isLater
    · omega
    · obtain ⟨before, after, parts, -⟩ := exists_join_of_mem separator isLater
      have rest := congrArg List.length parts
      rw [List.length_append, List.length_append] at rest
      omega

end Text

/-- The form of a choice between forms: all their members, of which a single one
stands for itself. -/
def TypeForm.choice (forms : List TypeForm) : TypeForm :=
  match forms.flatMap members with
  | [member] => .simple member
  | members => .union members

namespace TypeExpression

/-! ## Slashes outside of code spans -/

/-- A slash stands behind an even number of ticks, so outside of code spans. -/
def HasOpenSlash (text : Text) : Prop :=
  ∃ before, before ++ ['/'] <+: text ∧ Even (before.count tick)

theorem not_hasOpenSlash_iff {text : Text} :
    ¬ HasOpenSlash text ↔ IsSpanned '/' false text := by
  constructor
  · intro closed before starts
    rw [endsInSpan_eq_true_iff, ← Nat.not_even_iff_odd]
    exact fun even => closed ⟨before, starts, even⟩
  · rintro spanned ⟨before, starts, even⟩
    have odd := endsInSpan_eq_true_iff.mp (spanned before starts)
    exact Nat.not_even_iff_odd.mpr odd even

/-- A text is split when it has a slash outside of code spans. -/
theorem one_lt_length_slashPieces_iff {text : Text} :
    1 < (slashPieces text).length ↔ HasOpenSlash text := by
  constructor
  · intro several
    by_contra closed
    rw [slashPieces_eq_singleton (not_hasOpenSlash_iff.mp closed)] at several
    exact absurd several (Nat.lt_irrefl 1)
  · intro isOpen
    obtain ⟨first, others, shape⟩ := List.exists_cons_of_ne_nil
      (splitOutsideSpans_ne_nil '/' false text)
    cases others with
    | cons second rest =>
        rw [slashPieces, shape]
        simp
    | nil =>
        -- A single piece would be the text, which has an open slash.
        have whole :
            Text.join ['/'] (splitOutsideSpans '/' false text) = text :=
          join_splitOutsideSpans false text
        rw [shape] at whole
        obtain rfl : first = text := whole
        have isPiece : first ∈ slashPieces first := by
          rw [slashPieces, shape]
          exact List.mem_singleton_self first
        exact absurd isOpen
          (not_hasOpenSlash_iff.mpr (isSpanned_of_mem_slashPieces isPiece))

theorem applies_slashRule_iff {text : Text} :
    slashRule.applies text = true ↔ HasOpenSlash text :=
  decide_eq_true_iff.trans one_lt_length_slashPieces_iff

theorem applies_slashRule_of_isSpanned {text : Text}
    (spanned : IsSpanned '/' false text) : slashRule.applies text = false := by
  rw [Bool.eq_false_iff, Ne, applies_slashRule_iff, not_hasOpenSlash_iff]
  exact spanned

/-! ## The rules inside the rule for slashes -/

/-- The normal form by all the rules, which the rule for slashes enters again
for each of its pieces; `none` when that goes more than `depth` levels deep. -/
def normalFormWithin : Nat → Text → Option TypeForm
  | 0, _ => none
  | depth + 1, raw =>
      if slashRule.applies (Text.trim raw) then
        ((slashAlternatives (Text.trim raw)).mapM
          (normalFormWithin depth)).map TypeForm.choice
      else some ((matchingRule raw).form (Text.trim raw))

/-- Pieces that each have a form are brought to their forms. -/
theorem mapM_eq_some_map {pieces : List Text} {form? : Text → Option TypeForm}
    {form : Text → TypeForm}
    (each : ∀ piece ∈ pieces, form? piece = some (form piece)) :
    pieces.mapM form? = some (pieces.map form) := by
  induction pieces with
  | nil =>
      rfl
  | cons first rest inductionHypothesis =>
      obtain ⟨ofFirst, ofRest⟩ := List.forall_mem_cons.mp each
      simp only [List.mapM_cons, ofFirst, inductionHypothesis ofRest,
        Option.pure_def, Option.bind_eq_bind, Option.bind_some, List.map_cons]

theorem slashForm_eq_choice (text : Text) :
    slashForm text =
      .choice ((slashAlternatives text).map pieceForm) := by
  rw [TypeForm.choice, List.flatMap_map]
  rfl

section Piece

variable {text piece : Text} (member : piece ∈ slashAlternatives text)

include member

theorem isSpanned_of_mem_slashAlternatives : IsSpanned '/' false piece := by
  obtain ⟨whole, isPiece, rfl⟩ :=
    List.mem_map.mp (List.mem_filter.mp member).1
  exact (isSpanned_of_mem_slashPieces isPiece).trim

theorem trim_of_mem_slashAlternatives : Text.trim piece = piece := by
  obtain ⟨whole, -, rfl⟩ := List.mem_map.mp (List.mem_filter.mp member).1
  exact Text.trim_trim whole

/-- A piece is brought to its form without the rule for slashes. -/
theorem normalFormWithin_piece (depth : Nat) :
    normalFormWithin (depth + 1) piece = some (pieceForm piece) := by
  have spanned := isSpanned_of_mem_slashAlternatives member
  have trimmed := trim_of_mem_slashAlternatives member
  have fails := applies_slashRule_of_isSpanned spanned
  rw [← normalForm_of_isSpanned trimmed spanned, normalFormWithin, trimmed,
    fails, if_neg Bool.false_ne_true, normalForm, trimmed]

end Piece

/-- Two levels of the rules are enough for every expression. -/
theorem normalFormWithin_eq (depth : Nat) (raw : Text) :
    normalFormWithin (depth + 2) raw = some (normalForm raw) := by
  rw [normalFormWithin]
  by_cases slashes : slashRule.applies (Text.trim raw) = true
  · have pieces :
        (slashAlternatives (Text.trim raw)).mapM
            (normalFormWithin (depth + 1)) =
          some ((slashAlternatives (Text.trim raw)).map pieceForm) :=
      mapM_eq_some_map fun _ member => normalFormWithin_piece member depth
    rw [if_pos slashes, pieces, Option.map_some, ← slashForm_eq_choice,
      normalForm_of_slashes (of_decide_eq_true slashes)]
  · rw [if_neg slashes]
    rfl

/-- A text is split at its open slashes without loss, its pieces have none,
trimmed or not, and several pieces are each shorter than the text. So the rule
for slashes never applies to what it hands on, and two levels of the rules bring
every expression to its form. -/
theorem slashPieces_isShallow (text : Text) :
    (1 < (slashPieces text).length ↔ HasOpenSlash text) ∧
      Text.join ['/'] (slashPieces text) = text ∧
      (∀ piece ∈ slashPieces text,
        ¬ HasOpenSlash piece ∧ ¬ HasOpenSlash (Text.trim piece)) ∧
      (1 < (slashPieces text).length →
        ∀ piece ∈ slashPieces text, piece.length < text.length) ∧
      (∀ piece ∈ slashAlternatives (Text.trim text),
        slashRule.applies (Text.trim piece) = false) ∧
      ∀ depth, normalFormWithin (depth + 2) text = some (normalForm text) := by
  have lossless : Text.join ['/'] (slashPieces text) = text :=
    join_splitOutsideSpans false text
  refine ⟨one_lt_length_slashPieces_iff, lossless, ?_, ?_, ?_,
    fun depth => normalFormWithin_eq depth text⟩
  · intro piece member
    have spanned := isSpanned_of_mem_slashPieces member
    exact ⟨not_hasOpenSlash_iff.mpr spanned,
      not_hasOpenSlash_iff.mpr spanned.trim⟩
  · intro several piece member
    have shorter := Text.length_lt_length_join '/' several member
    rwa [lossless] at shorter
  · intro piece member
    exact applies_slashRule_of_isSpanned
      (isSpanned_of_mem_slashAlternatives member).trim

/-- A tick that is never closed covers the slashes behind it, but only in its
own piece. -/
example :
    slashPieces "a / `b/c` / `d/e".toList =
        ["a ".toList, " `b/c` ".toList, " `d/e".toList] ∧
      normalFormWithin 1 "a / `b/c` / `d/e".toList = none := by
  decide

end TypeExpression

end ComponentDocs
