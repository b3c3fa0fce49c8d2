import ComponentDocs.Markdown.Heading
import ComponentDocs.Proofs.Markdown.Line
import ComponentDocs.Proofs.Markdown.Opened

/-!
The block structure does not depend on where a text stands: moving the lines
moves the offsets of the open paragraph and of the headings, and nothing else.
-/

namespace ComponentDocs.Markdown

/-! ## Moved offsets -/

def ParagraphLine.shift (amount : Nat) (line : ParagraphLine) :
    ParagraphLine :=
  { line with offset := line.offset + amount }

def HeadingSpan.shift (amount : Nat) (span : HeadingSpan) : HeadingSpan where
  level := span.level
  start := span.start + amount
  textStart := span.textStart + amount
  textEnd := span.textEnd + amount
  finish := span.finish + amount

def Leaf.shift (amount : Nat) : Leaf → Leaf
  | paragraph lines => paragraph (lines.map (ParagraphLine.shift amount))
  | leaf => leaf

def Above.shift (amount : Nat) : Above → Above
  | paragraph lines => paragraph (lines.map (ParagraphLine.shift amount))
  | above => above

def LineContent.shift (amount : Nat) : LineContent → LineContent
  | heading span => heading (span.shift amount)
  | .leaf held => .leaf (held.shift amount)
  | text cursor => text cursor

def OpenBlocks.shift (amount : Nat) (blocks : OpenBlocks) : OpenBlocks :=
  ⟨blocks.containers, blocks.leaf.shift amount⟩

variable (amount : Nat)

@[simp]
theorem Line.contentEnd_shift (line : Line) :
    (line.shift amount).contentEnd = line.contentEnd + amount := by
  simp only [Line.contentEnd, Line.shift]
  omega

@[simp]
theorem Line.finish_shift (line : Line) :
    (line.shift amount).finish = line.finish + amount := by
  rw [Line.finish, Line.finish, Line.contentEnd_shift]
  exact Nat.add_right_comm _ _ _

@[simp]
theorem Line.isEnded_shift (line : Line) :
    (line.shift amount).isEnded = line.isEnded :=
  rfl

@[simp]
theorem ofLine_shift (line : Line) :
    Cursor.ofLine (line.shift amount) = Cursor.ofLine line :=
  rfl

theorem Leaf.shift_eq {leaf : Leaf}
    (notParagraph : ∀ lines, leaf ≠ .paragraph lines) :
    leaf.shift amount = leaf := by
  cases leaf with
  | paragraph lines => exact absurd rfl (notParagraph lines)
  | none => rfl
  | fencedCode mark length => rfl
  | indentedCode => rfl
  | html block => rfl
  | table => rfl

@[simp]
theorem Above.takesText_shift (above : Above) :
    (above.shift amount).takesText = above.takesText := by
  cases above <;> rfl

@[simp]
theorem Above.isInner_shift (above : Above) :
    (above.shift amount).isInner = above.isInner := by
  cases above <;> rfl

@[simp]
theorem Above.lines?_shift (above : Above) :
    (above.shift amount).lines? =
      above.lines?.map (List.map (ParagraphLine.shift amount)) := by
  cases above <;> rfl

/-! ## Paragraphs -/

theorem map_content_shift (lines : List ParagraphLine) :
    (lines.map (ParagraphLine.shift amount)).map ParagraphLine.content =
      lines.map ParagraphLine.content := by
  rw [List.map_map]
  rfl

theorem withoutDefinitions_shift (lines : List ParagraphLine) :
    withoutDefinitions (lines.map (ParagraphLine.shift amount)) =
      (withoutDefinitions lines).map (ParagraphLine.shift amount) := by
  rw [withoutDefinitions, withoutDefinitions, map_content_shift,
    List.length_map, List.map_drop]

theorem underlined?_shift (level : Nat) (lines : List ParagraphLine)
    (line : Line) :
    underlined? level (lines.map (ParagraphLine.shift amount))
        (line.shift amount) =
      (underlined? level lines line).map (HeadingSpan.shift amount) := by
  rw [underlined?, underlined?, withoutDefinitions_shift, List.head?_map,
    List.getLast?_map]
  cases (withoutDefinitions lines).head? with
  | none => rfl
  | some first =>
      cases (withoutDefinitions lines).getLast? with
      | none => rfl
      | some last =>
          simp only [Option.map_some, HeadingSpan.shift, ParagraphLine.shift,
            Line.finish_shift]
          congr 2
          omega

theorem delimitsTable_shift (lines : List ParagraphLine) (visible : Text) :
    delimitsTable (lines.map (ParagraphLine.shift amount)) visible =
      delimitsTable lines visible := by
  rw [delimitsTable, delimitsTable, List.getLast?_map]
  cases lines.getLast? <;> rfl

/-! ## Lines -/

section Line

variable {line : Line} {cursor : Cursor}
  (within : cursor.visible <:+ line.content)

include within

theorem visibleOffset_shift :
    visibleOffset (line.shift amount) cursor =
      visibleOffset line cursor + amount := by
  have fits := within.length_le
  rw [visibleOffset, visibleOffset, Line.contentEnd_shift]
  unfold Line.contentEnd
  omega

theorem paragraphLine_shift :
    paragraphLine (line.shift amount) cursor =
      (paragraphLine line cursor).shift amount := by
  rw [paragraphLine, visibleOffset_shift amount within]
  rfl

theorem hashHeading?_shift :
    hashHeading? (line.shift amount) cursor =
      (hashHeading? line cursor).map (HeadingSpan.shift amount) := by
  rw [hashHeading?, hashHeading?, Line.isEnded_shift]
  cases marked : Marker.hashes? cursor.visible with
  | none => rfl
  | some mark =>
      obtain ⟨level, rest⟩ := mark
      have shorter := Marker.hashes?_length marked
      have fits := within.length_le
      have dropped := (List.dropWhile_suffix (l := rest) isIndent).length_le
      dsimp only
      split
      · rfl
      · rw [Option.map_some, visibleOffset_shift amount within,
          Line.contentEnd_shift, Line.finish_shift]
        simp only [HeadingSpan.shift]
        congr 2
        unfold Line.contentEnd
        omega

end Line

theorem openLeaf?_shift (above : Above) (cursor : Cursor) :
    openLeaf? (above.shift amount) cursor = openLeaf? above cursor := by
  rw [openLeaf?, openLeaf?, Above.takesText_shift]

theorem underlineOf?_shift (line : Line) (above : Above) (visible : Text) :
    underlineOf? (line.shift amount) (above.shift amount) visible =
      (underlineOf? line above visible).map (HeadingSpan.shift amount) := by
  rw [underlineOf?, underlineOf?, Above.lines?_shift, Line.isEnded_shift]
  cases above.lines? with
  | none => rfl
  | some lines =>
      cases Marker.underline? visible with
      | none => rfl
      | some level =>
          rw [Option.map_some]
          dsimp only
          split
          · exact underlined?_shift amount level lines line
          · rfl

theorem openLeaf?_shift_eq {above : Above} {cursor : Cursor} {leaf : Leaf}
    (opens : openLeaf? above cursor = some leaf) :
    leaf.shift amount = leaf :=
  Leaf.shift_eq amount (openLeaf?_ne_paragraph opens)

theorem any_delimitsTable_shift (above : Above) (visible : Text) :
    (above.lines?.map (List.map (ParagraphLine.shift amount))).any
        (delimitsTable · visible) =
      above.lines?.any (delimitsTable · visible) := by
  cases above.lines? with
  | none => rfl
  | some lines => exact delimitsTable_shift amount lines visible

/-- Moving a line moves what it opens. -/
theorem openBlocks_shift (line : Line) (fuel : Nat) (above : Above)
    (cursor : Cursor) (within : cursor.visible <:+ line.content) :
    openBlocks (line.shift amount) fuel (above.shift amount) cursor =
      ((openBlocks line fuel above cursor).1,
        (openBlocks line fuel above cursor).2.shift amount) := by
  -- A quote and an item open blocks on a shorter cursor, with nothing above.
  induction fuel generalizing above cursor with
  | zero =>
      rfl
  | succ fuel inductionHypothesis =>
      have nothing (inner : Cursor)
          (withinInner : inner.visible <:+ line.content) :
          openBlocks (line.shift amount) fuel .nothing inner =
            ((openBlocks line fuel .nothing inner).1,
              (openBlocks line fuel .nothing inner).2.shift amount) :=
        inductionHypothesis .nothing inner withinInner
      have quoted := nothing (Container.afterQuoteMark cursor)
        ((Container.visible_afterQuoteMark cursor).trans within)
      have item (marker : Nat) := nothing (Container.openItem cursor marker).2
        ((Container.visible_openItem cursor marker).trans within)
      simp only [openBlocks, quoted, item, hashHeading?_shift amount within,
        openLeaf?_shift, underlineOf?_shift, Above.takesText_shift,
        Above.isInner_shift, Above.lines?_shift]
      split
      · rfl
      split
      · split <;> rfl
      split
      · rfl
      cases hashHeading? line cursor with
      | some span => rfl
      | none =>
          cases opens : openLeaf? above cursor with
          | some leaf =>
              simp [LineContent.shift, openLeaf?_shift_eq amount opens]
          | none =>
              cases underlineOf? line above cursor.visible with
              | some span => rfl
              | none =>
                  rw [Option.map_none, any_delimitsTable_shift]
                  dsimp only
                  split
                  · rfl
                  · cases Marker.listMarker? above.isInner cursor.visible with
                    | some marker => rfl
                    | none =>
                        dsimp only
                        split <;> rfl

/-! ## One line -/

theorem Leaf.continue?_shift (cursor : Cursor) (leaf : Leaf) :
    (leaf.shift amount).continue? cursor =
      (leaf.continue? cursor).map (Leaf.shift amount) := by
  cases leaf with
  | fencedCode mark length =>
      simp only [Leaf.shift, Leaf.continue?]
      split <;> rfl
  | html block =>
      simp only [Leaf.shift, Leaf.continue?]
      split
      · rfl
      · split <;> rfl
  | indentedCode =>
      simp only [Leaf.shift, Leaf.continue?]
      split <;> rfl
  | none => rfl
  | paragraph lines => rfl
  | table => rfl

theorem Leaf.above_shift (all : Bool) (cursor : Cursor) (leaf : Leaf) :
    (leaf.shift amount).above all cursor =
      (leaf.above all cursor).shift amount := by
  cases leaf with
  | paragraph lines =>
      simp only [Leaf.shift, Leaf.above]
      split <;> rfl
  | table =>
      simp only [Leaf.shift, Leaf.above]
      split <;> rfl
  | none => rfl
  | fencedCode mark length => rfl
  | indentedCode => rfl
  | html block => rfl

namespace OpenBlocks

theorem addText_shift (blocks : OpenBlocks) (continued : List Container)
    (above : Above) (added : ParagraphLine) (cursor : Cursor) :
    (blocks.shift amount).addText continued (above.shift amount)
        (added.shift amount) cursor =
      (blocks.addText continued above added cursor).shift amount := by
  obtain ⟨containers, leaf⟩ := blocks
  cases leaf with
  | paragraph lines =>
      cases above with
      | paragraph held =>
          simp only [OpenBlocks.shift, Leaf.shift, Above.shift, addText]
          split
          · simp [withoutDefinitions_shift]
          · simp
      | nothing => simp [OpenBlocks.shift, Leaf.shift, Above.shift, addText]
      | outerParagraph =>
          simp [OpenBlocks.shift, Leaf.shift, Above.shift, addText]
      | table => simp [OpenBlocks.shift, Leaf.shift, Above.shift, addText]
  | none => cases above <;> rfl
  | fencedCode mark length => cases above <;> rfl
  | indentedCode => cases above <;> rfl
  | html block => cases above <;> rfl
  | table => cases above <;> rfl

theorem openNew_shift (blocks : OpenBlocks) {line : Line}
    (continued : List Container) (all : Bool) {cursor : Cursor}
    (within : cursor.visible <:+ line.content) :
    (blocks.shift amount).openNew (line.shift amount) continued all cursor =
      ((blocks.openNew line continued all cursor).1.shift amount,
        (blocks.openNew line continued all cursor).2.map
          (HeadingSpan.shift amount)) := by
  have opens := opens_openBlocks (cursor.rest.length + 1)
    (blocks.leaf.above all cursor) within
  have moved := openBlocks_shift amount line (cursor.rest.length + 1)
    (blocks.leaf.above all cursor) cursor within
  rw [← Leaf.above_shift] at moved
  have sameLeaf : (blocks.shift amount).leaf = blocks.leaf.shift amount := rfl
  rw [openNew, openNew, sameLeaf]
  dsimp only
  rw [moved]
  generalize openBlocks line (cursor.rest.length + 1)
    (blocks.leaf.above all cursor) cursor = result at opens ⊢
  obtain ⟨opened, content⟩ := result
  cases opens with
  | hashes _ _ => rfl
  | underline _ => rfl
  | leaf notParagraph => rfl
  | @text left withinLeft =>
      dsimp only [LineContent.shift]
      split
      · rfl
      split
      · rw [Leaf.above_shift, paragraphLine_shift amount withinLeft,
          addText_shift]
        rfl
      · rw [paragraphLine_shift amount withinLeft]
        rfl

/-- Moving a line and the blocks open before it moves the blocks open after it
and the heading that it completes. -/
theorem next_shift (blocks : OpenBlocks) (line : Line) :
    (blocks.shift amount).next (line.shift amount) =
      ((blocks.next line).1.shift amount,
        (blocks.next line).2.map (HeadingSpan.shift amount)) := by
  have within :=
    Container.visible_continueAll_ofLine line blocks.containers
  have sameContainers : (blocks.shift amount).containers = blocks.containers :=
    rfl
  have sameLeaf : (blocks.shift amount).leaf = blocks.leaf.shift amount := rfl
  rw [next, next, ofLine_shift, sameContainers, sameLeaf]
  generalize Container.continueAll (Cursor.ofLine line) blocks.containers =
    result at within ⊢
  obtain ⟨continued, all, cursor⟩ := result
  dsimp only
  rw [Leaf.continue?_shift, openNew_shift amount blocks continued all within]
  cases all with
  | false => rfl
  | true =>
      cases blocks.leaf.continue? cursor with
      | none => rfl
      | some leaf => rfl

end OpenBlocks

end ComponentDocs.Markdown
