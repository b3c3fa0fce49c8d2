import ComponentDocs.Markdown.Block
import Mathlib.Data.List.DropRight

/-!
What is left of a line: whatever is dropped of it, its visible part is an end
of what was visible before.
-/

namespace ComponentDocs.Markdown

namespace Cursor

theorem skipFrom_rest (column : Nat) (text : Text) :
    (skipFrom column text).rest = text.dropWhile isIndent := by
  fun_induction skipFrom column text with
  | case1 column rest inductionHypothesis =>
      rw [inductionHypothesis]
      simp [isIndent]
  | case2 column rest inductionHypothesis =>
      rw [inductionHypothesis]
      simp [isIndent]
  | case3 column rest notSpace notTab =>
      cases rest with
      | nil => rfl
      | cons head tail =>
          have visible : isIndent head = false := by
            simpa [isIndent] using
              ⟨fun equality => notSpace tail (by rw [equality]),
                fun equality => notTab tail (by rw [equality])⟩
          rw [List.dropWhile_cons_of_neg (by simp [visible])]

theorem visible_eq (cursor : Cursor) :
    cursor.visible = cursor.rest.dropWhile isIndent :=
  skipFrom_rest _ _

@[simp]
theorem visible_skipIndent (cursor : Cursor) :
    cursor.skipIndent.visible = cursor.visible := by
  rw [visible_eq, skipIndent, skipFrom_rest, List.dropWhile_idempotent,
    visible_eq]

theorem dropFrom_visible (count column : Nat) (text : Text) :
    (dropFrom count column text).rest.dropWhile isIndent =
      text.dropWhile isIndent := by
  fun_induction dropFrom count column text with
  | case1 column rest => rfl
  | case2 count column rest positive inductionHypothesis =>
      rw [inductionHypothesis]
      simp [isIndent]
  | case3 column rest => rfl
  | case4 count column rest width positive fits inductionHypothesis =>
      rw [inductionHypothesis]
      simp [isIndent]
  | case5 count column rest width positive wide =>
      have spaces :
          ∀ character ∈ List.replicate (width - count) ' ',
            isIndent character = true := by
        intro character member
        rw [List.eq_of_mem_replicate member]
        rfl
      rw [List.dropWhile_append_of_pos spaces]
      simp [isIndent]
  | case6 => rfl

@[simp]
theorem visible_dropColumns (count : Nat) (cursor : Cursor) :
    (cursor.dropColumns count).visible = cursor.visible := by
  rw [visible_eq, dropColumns, dropFrom_visible, visible_eq]

theorem visible_dropMarker (count : Nat) (cursor : Cursor) :
    (cursor.skipIndent.dropMarker count).visible <:+ cursor.visible := by
  rw [visible_eq (cursor.skipIndent.dropMarker count)]
  exact (List.dropWhile_suffix _).trans (List.drop_suffix _ _)

theorem visible_ofLine (line : Line) :
    (ofLine line).visible <:+ line.content := by
  rw [visible_eq]
  exact List.dropWhile_suffix _

end Cursor

namespace Container

open Cursor

theorem visible_afterQuoteMark (cursor : Cursor) :
    (afterQuoteMark cursor).visible <:+ cursor.visible := by
  rw [afterQuoteMark, visible_dropColumns]
  exact visible_dropMarker 1 cursor

theorem continue?_quote (cursor : Cursor) :
    quote.continue? cursor =
      if startsQuote cursor then some (quote, afterQuoteMark cursor)
      else none :=
  rfl

theorem continue?_item (cursor : Cursor) (width : Nat) (hasContent : Bool) :
    (item width hasContent).continue? cursor =
      if cursor.isBlank then
        if hasContent then some (item width true, cursor.skipIndent) else none
      else if width ≤ cursor.indent then
        some (item width true, cursor.dropColumns width)
      else none :=
  rfl

theorem visible_continue? {cursor rest : Cursor}
    {container continued : Container}
    (continues : container.continue? cursor = some (continued, rest)) :
    rest.visible <:+ cursor.visible := by
  cases container with
  | quote =>
      rw [continue?_quote, Option.ite_none_right_eq_some, Option.some.injEq,
        Prod.mk.injEq] at continues
      rw [← continues.2.2]
      exact visible_afterQuoteMark cursor
  | item width hasContent =>
      rw [continue?_item] at continues
      split at continues
      · rw [Option.ite_none_right_eq_some, Option.some.injEq,
          Prod.mk.injEq] at continues
        rw [← continues.2.2]
        exact ⟨[], visible_skipIndent cursor⟩
      · rw [Option.ite_none_right_eq_some, Option.some.injEq,
          Prod.mk.injEq] at continues
        rw [← continues.2.2]
        exact ⟨[], visible_dropColumns _ cursor⟩

theorem visible_continueAll (cursor : Cursor) (containers : List Container) :
    (continueAll cursor containers).2.2.visible <:+ cursor.visible := by
  induction containers generalizing cursor with
  | nil =>
      exact List.suffix_rfl
  | cons container inner inductionHypothesis =>
      rw [continueAll]
      split
      · rename_i continued rest continues
        exact (inductionHypothesis rest).trans (visible_continue? continues)
      · exact List.suffix_rfl

theorem visible_openItem (cursor : Cursor) (marker : Nat) :
    (openItem cursor marker).2.visible <:+ cursor.visible := by
  have after := visible_dropMarker marker cursor
  rw [openItem]
  split
  · simpa using after
  · split
    · simpa using after
    · simpa using after

/-- What is visible of a line after its containers is an end of the line. -/
theorem visible_continueAll_ofLine (line : Line)
    (containers : List Container) :
    (continueAll (ofLine line) containers).2.2.visible <:+ line.content :=
  (visible_continueAll _ containers).trans (visible_ofLine line)

end Container

end ComponentDocs.Markdown
