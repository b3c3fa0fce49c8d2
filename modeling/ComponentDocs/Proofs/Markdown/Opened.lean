import ComponentDocs.Proofs.Markdown.Cursor

/-!
What a line can open: which headings, leaf blocks and lines of text come out of
looking for new blocks.
-/

namespace ComponentDocs.Markdown

theorem Marker.hashes?_eq {text rest : Text} {level : Nat}
    (marked : hashes? text = some (level, rest)) :
    level ≠ 0 ∧ level = run '#' text ∧ rest = text.drop level := by
  dsimp only [hashes?] at marked
  split at marked
  · cases marked
  · rename_i proper
    simp only [Bool.or_eq_true, decide_eq_true_eq, not_or] at proper
    split at marked
    · rename_i nothing
      simp only [Option.some.injEq, Prod.mk.injEq] at marked
      obtain ⟨rfl, rfl⟩ := marked
      exact ⟨proper.1, rfl, nothing.symm⟩
    · rw [Option.ite_none_right_eq_some, Option.some.injEq,
        Prod.mk.injEq] at marked
      obtain ⟨-, rfl, rfl⟩ := marked
      exact ⟨proper.1, rfl, rfl⟩

theorem Marker.hashes?_length {text rest : Text} {level : Nat}
    (marked : hashes? text = some (level, rest)) :
    rest.length < text.length := by
  obtain ⟨positive, runs, rfl⟩ := hashes?_eq marked
  have bounded : run '#' text ≤ text.length :=
    (List.takeWhile_prefix _).length_le
  rw [List.length_drop]
  omega

theorem openLeaf?_ne_paragraph {above : Above} {cursor : Cursor} {leaf : Leaf}
    (opens : openLeaf? above cursor = some leaf) :
    ∀ lines, leaf ≠ .paragraph lines := by
  dsimp only [openLeaf?] at opens
  split at opens
  · split at opens
    · cases opens
      simp
    · split at opens
      · rename_i block rest _
        cases opens
        cases block.isClosedBy rest <;> simp
      · rw [Option.ite_none_right_eq_some, Option.some.injEq] at opens
        obtain ⟨-, rfl⟩ := opens
        simp
  · cases opens

/-- What a line holds below a given block: a heading by hashes or underlining,
a leaf block other than a paragraph, or text. -/
inductive Opens (line : Line) (above : Above) : LineContent → Prop
  | hashes {cursor : Cursor} {span : HeadingSpan}
      (within : cursor.visible <:+ line.content)
      (marked : hashHeading? line cursor = some span) :
      Opens line above (.heading span)
  | underline {visible : Text} {span : HeadingSpan}
      (marked : underlineOf? line above visible = some span) :
      Opens line above (.heading span)
  | leaf {leaf : Leaf} (notParagraph : ∀ lines, leaf ≠ .paragraph lines) :
      Opens line above (.leaf leaf)
  | text {cursor : Cursor} (within : cursor.visible <:+ line.content) :
      Opens line above (.text cursor)

/-- Below nothing there is nothing to underline. -/
theorem Opens.of_nothing {line : Line} {content : LineContent}
    (opens : Opens line .nothing content) (above : Above) :
    Opens line above content := by
  cases opens with
  | hashes within marked => exact .hashes within marked
  | underline marked => cases marked
  | leaf notParagraph => exact .leaf notParagraph
  | text within => exact .text within

theorem opens_openBlocks {line : Line} (fuel : Nat) (above : Above)
    {cursor : Cursor} (within : cursor.visible <:+ line.content) :
    Opens line above (openBlocks line fuel above cursor).2 := by
  induction fuel generalizing above cursor with
  | zero =>
      exact .text within
  | succ fuel inductionHypothesis =>
      have quoted := inductionHypothesis .nothing
        ((Container.visible_afterQuoteMark cursor).trans within)
      have item (marker : Nat) := inductionHypothesis .nothing
        ((Container.visible_openItem cursor marker).trans within)
      rw [openBlocks]
      dsimp only
      split
      · exact .text within
      split
      · split
        · exact .text within
        · exact .leaf (by simp)
      split
      · exact quoted.of_nothing above
      split
      · rename_i span marked
        exact .hashes within marked
      split
      · rename_i leaf opens
        exact .leaf (openLeaf?_ne_paragraph opens)
      split
      · rename_i span marked
        exact .underline marked
      split
      · exact .leaf (by simp)
      split
      · rename_i marker _
        exact (item marker).of_nothing above
      split
      · exact .leaf (by simp)
      · exact .text within

end ComponentDocs.Markdown
