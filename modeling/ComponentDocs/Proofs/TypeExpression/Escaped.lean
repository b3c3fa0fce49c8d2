import ComponentDocs.Proofs.TypeExpression.Search
import ComponentDocs.Proofs.TypeExpression.Span

/-!
Expressions in which every pipe is escaped: pipes give no alternatives, so that
a union has one member for each piece between slashes.
-/

namespace ComponentDocs.TypeExpression

/-- A form of a single member: one name, or what a marked code span holds. -/
inductive IsSingle (member : Text) : TypeForm → Prop
  | simple : IsSingle member (.simple member)
  | literal : IsSingle member (.literal member)

theorem IsSingle.members_eq {member : Text} {form : TypeForm}
    (single : IsSingle member form) : form.members = [member] := by
  cases single with
  | simple => rfl
  | literal => rfl

/-! ## Pieces -/

section Piece

variable {text : Text} (escaped : Text.PipesEscaped text)

include escaped

theorem hasOpenPipe_of_escaped : hasOpenPipe text = false := by
  have hidden : '|' ∉ Text.hidePipes pipeStand text :=
    Text.not_mem_hidePipes pipeStand (by decide) escaped
  rw [Text.mem_hidePipes_iff (by decide)] at hidden
  simpa [hasOpenPipe] using hidden

theorem isSingle_formOfContent :
    ∃ member, IsSingle member (formOfContent text) := by
  rw [formOfContent, hasOpenPipe_of_escaped escaped]
  exact ⟨_, .simple⟩

theorem bracket?_escaped : Text.PipesEscaped ((bracket? text).getD text) := by
  cases found : bracket? text with
  | none =>
      exact escaped
  | some content =>
      obtain ⟨front, back, rfl, ends⟩ := exists_front_of_bracket? found
      exact escaped.part (by simp [ends])

theorem span?_escaped : Text.PipesEscaped ((span? text).getD text) := by
  cases found : span? text with
  | none =>
      exact escaped
  | some content =>
      obtain ⟨front, back, rfl, ends⟩ := exists_front_of_span? found
      exact escaped.part (by simp [ends, tick])

/-- Without slashes an expression with escaped pipes has a single member. -/
theorem isSingle_pieceForm : ∃ member, IsSingle member (pieceForm text) := by
  rcases function : markedSpan? functionMarker text with _ | span
  swap
  · rw [pieceForm_of_function function]
    exact ⟨_, .literal⟩
  rcases object : markedSpan? objectMarker text with _ | span
  swap
  · rw [pieceForm_of_object function object]
    exact ⟨_, .literal⟩
  rcases enum : markedSpan? enumMarker text with _ | span
  swap
  · rw [pieceForm_of_enum function object enum]
    exact ⟨_, .literal⟩
  rw [pieceForm_of_unmarked function object enum]
  have plainLeft :
      ∃ rule ∈ [bracketRule, spanRule, openPipeRule, escapedPipeRule,
        plainRule], rule.applies text = true :=
    ⟨plainRule, by simp, rfl⟩
  obtain ⟨isLeft, applies⟩ := firstRule_spec plainLeft
  generalize firstRule [bracketRule, spanRule, openPipeRule, escapedPipeRule,
    plainRule] text = rule at isLeft applies ⊢
  simp only [List.mem_cons, List.not_mem_nil, or_false] at isLeft
  rcases isLeft with rfl | rfl | rfl | rfl | rfl
  · exact isSingle_formOfContent (bracket?_escaped escaped)
  · exact isSingle_formOfContent (span?_escaped escaped)
  · have closed : openPipeRule.applies text = false :=
      hasOpenPipe_of_escaped escaped
    exact absurd applies (by simp [closed])
  · exact ⟨_, .simple⟩
  · exact ⟨_, .simple⟩

/-! ## Slashes -/

theorem pipesEscaped_of_mem_slashPieces {piece : Text}
    (member : piece ∈ slashPieces text) : Text.PipesEscaped piece := by
  have whole : Text.join ['/'] (slashPieces text) = text :=
    join_splitOutsideSpans false text
  obtain ⟨before, after, parts, ends⟩ := Text.exists_join_of_mem '/' member
  rw [← whole, parts] at escaped
  apply escaped.part
  rcases ends with rfl | ends
  · simp
  · simp [ends]

/-- Each piece between slashes is resolved on its own, to a single member. -/
theorem isSingle_of_mem_slashAlternatives {piece : Text}
    (member : piece ∈ slashAlternatives text) :
    pieceForm piece = normalForm piece ∧
      ∃ name, IsSingle name (normalForm piece) := by
  obtain ⟨isTrimmed, -⟩ := List.mem_filter.mp member
  obtain ⟨written, isPiece, rfl⟩ := List.mem_map.mp isTrimmed
  have spanned := (isSpanned_of_mem_slashPieces isPiece).trim
  have escapedPiece := (pipesEscaped_of_mem_slashPieces escaped isPiece).trim
  have same := normalForm_of_isSpanned (Text.trim_trim written) spanned
  rw [same]
  exact ⟨rfl, isSingle_pieceForm escapedPiece⟩

end Piece

/-! ## Unions -/

theorem forall₂_flatMap_members {pieces : List Text} {form : Text → TypeForm}
    (each : ∀ piece ∈ pieces, ∃ name, IsSingle name (form piece)) :
    List.Forall₂ (fun member piece => IsSingle member (form piece))
      (pieces.flatMap fun piece => (form piece).members) pieces := by
  induction pieces with
  | nil =>
      exact .nil
  | cons first others inductionHypothesis =>
      obtain ⟨⟨name, single⟩, eachOther⟩ := List.forall_mem_cons.mp each
      rw [List.flatMap_cons, single.members_eq]
      exact .cons single (inductionHypothesis eachOther)

/-- Where every pipe is escaped, a union comes from slashes outside of code
spans, and its members from the pieces between them that are not blank, each
from one. -/
theorem forall₂_of_normalForm {raw : Text} (escaped : Text.PipesEscaped raw)
    (trimmed : Text.trim raw = raw) {members : List Text}
    (isUnion : normalForm raw = .union members) :
    ¬ IsSpanned '/' false raw ∧
      List.Forall₂ (fun member piece => IsSingle member (normalForm piece))
        members (slashAlternatives raw) := by
  have unspanned : ¬ IsSpanned '/' false raw := by
    intro spanned
    obtain ⟨name, single⟩ := isSingle_pieceForm escaped
    rw [← normalForm_of_isSpanned trimmed spanned, isUnion] at single
    cases single
  refine ⟨unspanned, ?_⟩
  have slashes : 1 < (slashPieces (Text.trim raw)).length := by
    by_contra few
    obtain ⟨name, single⟩ := isSingle_pieceForm escaped
    rw [normalForm_of_piece (Nat.not_lt.mp few), trimmed] at isUnion
    rw [isUnion] at single
    cases single
  have each (piece : Text) (member : piece ∈ slashAlternatives raw) :=
    isSingle_of_mem_slashAlternatives escaped member
  have same :
      ((slashAlternatives raw).flatMap fun piece => (pieceForm piece).members) =
        (slashAlternatives raw).flatMap fun piece =>
          (normalForm piece).members :=
    List.flatMap_congr fun piece member => by rw [(each piece member).1]
  have paired := forall₂_flatMap_members fun piece member =>
    (each piece member).2
  rw [normalForm_of_slashes slashes, trimmed, slashForm, same] at isUnion
  split at isUnion
  · cases isUnion
  · rw [← TypeForm.union.inj isUnion]
    exact paired

end ComponentDocs.TypeExpression
