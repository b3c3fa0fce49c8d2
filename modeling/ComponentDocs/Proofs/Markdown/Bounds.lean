import ComponentDocs.Proofs.Markdown.Opened

/-!
Where paragraphs and headings stand: between the end of the last heading and
the line that completes the next one.
-/

namespace ComponentDocs.Markdown

/-- An open paragraph stands between two offsets. -/
def OpenBlocks.Within (low high : Nat) (blocks : OpenBlocks) : Prop :=
  ∀ lines, blocks.leaf = .paragraph lines → ∀ line ∈ lines,
    low ≤ line.offset ∧ line.offset + line.content.length ≤ high

/-- A heading that a line completes starts on it or before it, and its text
ends with the content of the line at the latest. -/
structure HeadingSpan.EndsOn (low : Nat) (line : Line) (span : HeadingSpan) :
    Prop where
  start_ge : low ≤ span.start
  start_lt : span.start < line.finish
  textEnd_le : span.textEnd ≤ line.contentEnd
  finish_eq : span.finish = line.finish

namespace OpenBlocks

theorem within_of_ne_paragraph {blocks : OpenBlocks}
    (notParagraph : ∀ lines, blocks.leaf ≠ .paragraph lines)
    (low high : Nat) : blocks.Within low high :=
  fun lines isParagraph => absurd isParagraph (notParagraph lines)

theorem Within.mono {blocks : OpenBlocks} {low high higher : Nat}
    (placed : blocks.Within low high) (le : high ≤ higher) :
    blocks.Within low higher :=
  fun lines isParagraph line member =>
    have linePlaced := placed lines isParagraph line member
    ⟨linePlaced.1, linePlaced.2.trans le⟩

theorem within_initial (low high : Nat) : initial.Within low high :=
  within_of_ne_paragraph (by simp [initial]) low high

end OpenBlocks

theorem withoutDefinitions_suffix (lines : List ParagraphLine) :
    withoutDefinitions lines <:+ lines :=
  List.drop_suffix _ _

theorem Leaf.continue?_ne_paragraph {cursor : Cursor} {leaf continued : Leaf}
    (continues : leaf.continue? cursor = some continued) :
    ∀ lines, continued ≠ .paragraph lines := by
  cases leaf with
  | fencedCode mark length =>
      rw [Leaf.continue?] at continues
      split at continues <;> cases continues <;> simp
  | html block =>
      rw [Leaf.continue?] at continues
      split at continues
      · cases continues
        simp
      · split at continues <;> cases continues <;> simp
  | indentedCode =>
      rw [Leaf.continue?, Option.ite_none_right_eq_some,
        Option.some.injEq] at continues
      obtain ⟨-, rfl⟩ := continues
      simp
  | none => cases continues
  | paragraph lines => cases continues
  | table => cases continues

theorem Leaf.above_lines? {all : Bool} {cursor : Cursor} {leaf : Leaf}
    {lines : List ParagraphLine}
    (open_above : (leaf.above all cursor).lines? = some lines) :
    leaf = .paragraph lines := by
  cases leaf with
  | paragraph held =>
      rw [Leaf.above] at open_above
      split at open_above
      · cases open_above
        rfl
      · cases open_above
  | table =>
      rw [Leaf.above] at open_above
      split at open_above <;> cases open_above
  | none => cases open_above
  | fencedCode mark length => cases open_above
  | indentedCode => cases open_above
  | html block => cases open_above

/-! ## Headings -/

section Heading

variable {line : Line} {low : Nat} {span : HeadingSpan}

/-- The place of a heading that hashes mark. -/
theorem hashHeading?_eq_some {cursor : Cursor}
    (marked : hashHeading? line cursor = some span) :
    ∃ level rest, Marker.hashes? cursor.visible = some (level, rest) ∧
      span = ⟨level, visibleOffset line cursor,
        line.contentEnd - (rest.dropWhile isIndent).length, line.contentEnd,
        line.finish⟩ := by
  rw [hashHeading?] at marked
  split at marked
  · rename_i level rest hashes
    dsimp only at marked
    split at marked
    · cases marked
    · cases marked
      exact ⟨level, rest, hashes, rfl⟩
  · cases marked

/-- The place of an underlined heading, between lines of its paragraph. -/
theorem underlined?_eq_some {level : Nat} {lines : List ParagraphLine}
    (marked : underlined? level lines line = some span) :
    ∃ first ∈ lines, ∃ last ∈ lines,
      span = ⟨level, first.offset, first.offset,
        last.offset + last.content.length, line.finish⟩ := by
  have kept := (withoutDefinitions_suffix lines).subset
  rw [underlined?] at marked
  split at marked
  · rename_i first last isFirst isLast
    cases marked
    exact ⟨first, kept (List.mem_of_mem_head? isFirst), last,
      kept (List.mem_of_getLast? isLast), rfl⟩
  · cases marked

theorem underlineOf?_eq_some {above : Above} {visible : Text}
    (marked : underlineOf? line above visible = some span) :
    ∃ lines level, above.lines? = some lines ∧
      underlined? level lines line = some span := by
  rw [underlineOf?] at marked
  split at marked
  · rename_i lines level isOpen _
    rw [Option.ite_none_right_eq_some] at marked
    exact ⟨lines, level, isOpen, marked.2⟩
  · cases marked

theorem hashHeading?_endsOn {cursor : Cursor}
    (within : cursor.visible <:+ line.content) (below : low ≤ line.start)
    (marked : hashHeading? line cursor = some span) :
    span.EndsOn low line := by
  obtain ⟨level, rest, hashes, rfl⟩ := hashHeading?_eq_some marked
  have shorter := Marker.hashes?_length hashes
  have fits := within.length_le
  constructor
  · simp only [visibleOffset, Line.contentEnd]
    omega
  · simp only [visibleOffset, Line.finish, Line.contentEnd]
    omega
  · exact Nat.le_refl _
  · rfl

theorem underlined?_endsOn {level : Nat} {lines : List ParagraphLine}
    (proper : line.start < line.finish)
    (placed : ∀ held ∈ lines, low ≤ held.offset ∧
      held.offset + held.content.length ≤ line.start)
    (marked : underlined? level lines line = some span) :
    span.EndsOn low line := by
  obtain ⟨first, isFirst, last, isLast, rfl⟩ := underlined?_eq_some marked
  have firstPlaced := placed first isFirst
  have lastPlaced := placed last isLast
  constructor
  · exact firstPlaced.1
  · simp only
    omega
  · simp only [Line.contentEnd]
    omega
  · rfl

end Heading

/-! ## One line -/

namespace OpenBlocks

variable {blocks : OpenBlocks} {line : Line} {low : Nat}

/-- The lines of a paragraph after a line of text are lines of the paragraph
before it and the added one. -/
theorem mem_addText {continued : List Container} {above : Above}
    {added held : ParagraphLine} {cursor : Cursor}
    {lines : List ParagraphLine}
    (isParagraph :
      (blocks.addText continued above added cursor).leaf = .paragraph lines)
    (member : held ∈ lines) :
    held = added ∨
      ∃ before, blocks.leaf = .paragraph before ∧ held ∈ before := by
  unfold addText at isParagraph
  split at isParagraph
  · rename_i before _ isOpen
    injection isParagraph with sameLines
    rw [← sameLines, List.mem_append, List.mem_singleton] at member
    rcases member with member | isAdded
    · right
      refine ⟨before, isOpen, ?_⟩
      split at member
      · exact (withoutDefinitions_suffix before).subset member
      · exact member
    · exact .inl isAdded
  · rename_i before isOpen _
    injection isParagraph with sameLines
    rw [← sameLines, List.mem_append, List.mem_singleton] at member
    rcases member with member | isAdded
    · exact .inr ⟨before, isOpen, member⟩
    · exact .inl isAdded
  · cases isParagraph
  · injection isParagraph with sameLines
    rw [← sameLines, List.mem_singleton] at member
    exact .inl member

/-- What a line does to the open blocks: it is a heading by its hashes, it
underlines the open paragraph, it belongs to no paragraph, or it is text, which
a paragraph after it holds beside lines of the open one. -/
inductive Steps (blocks : OpenBlocks) (line : Line) :
    OpenBlocks × Option HeadingSpan → Prop
  | hashes {cursor : Cursor} {span : HeadingSpan}
      (containers : List Container)
      (within : cursor.visible <:+ line.content)
      (marked : hashHeading? line cursor = some span) :
      Steps blocks line (⟨containers, .none⟩, some span)
  | underline {lines : List ParagraphLine} {level : Nat} {span : HeadingSpan}
      (containers : List Container) (isOpen : blocks.leaf = .paragraph lines)
      (marked : underlined? level lines line = some span) :
      Steps blocks line (⟨containers, .none⟩, some span)
  | leaf {leaf : Leaf} (containers : List Container)
      (notParagraph : ∀ lines, leaf ≠ .paragraph lines) :
      Steps blocks line (⟨containers, leaf⟩, none)
  | text {cursor : Cursor} {after : OpenBlocks}
      (within : cursor.visible <:+ line.content)
      (visible : cursor.isBlank = false)
      (known : ∀ lines, after.leaf = .paragraph lines → ∀ held ∈ lines,
        held = paragraphLine line cursor ∨
          ∃ before, blocks.leaf = .paragraph before ∧ held ∈ before) :
      Steps blocks line (after, none)

theorem steps_openNew (continued : List Container) (all : Bool)
    {cursor : Cursor} (within : cursor.visible <:+ line.content) :
    Steps blocks line (blocks.openNew line continued all cursor) := by
  have opens := opens_openBlocks (cursor.rest.length + 1)
    (blocks.leaf.above all cursor) within
  rw [openNew]
  dsimp only
  generalize openBlocks line (cursor.rest.length + 1)
    (blocks.leaf.above all cursor) cursor = result at opens ⊢
  obtain ⟨opened, content⟩ := result
  cases opens with
  | hashes withinHashes marked =>
      exact .hashes _ withinHashes marked
  | underline marked =>
      obtain ⟨lines, level, isOpen, underlines⟩ :=
        underlineOf?_eq_some marked
      exact .underline _ (Leaf.above_lines? isOpen) underlines
  | leaf notParagraph =>
      exact .leaf _ notParagraph
  | @text left withinLeft =>
      dsimp only
      split
      · exact .leaf _ (by simp)
      rename_i visible
      rw [Bool.not_eq_true] at visible
      split
      · exact .text withinLeft visible
          fun lines isParagraph held member => mem_addText isParagraph member
      · refine .text withinLeft visible ?_
        intro lines isParagraph held member
        injection isParagraph with sameLines
        rw [← sameLines, List.mem_singleton] at member
        exact .inl member

theorem steps_next (blocks : OpenBlocks) (line : Line) :
    Steps blocks line (blocks.next line) := by
  have within :=
    Container.visible_continueAll_ofLine line blocks.containers
  rw [next]
  generalize Container.continueAll (Cursor.ofLine line) blocks.containers =
    result at within ⊢
  obtain ⟨continued, all, cursor⟩ := result
  dsimp only
  split
  · rename_i leaf continues
    rw [Option.ite_none_right_eq_some] at continues
    exact .leaf _ (Leaf.continue?_ne_paragraph continues.2)
  · exact steps_openNew continued all within

theorem paragraphLine_within {cursor : Cursor}
    (within : cursor.visible <:+ line.content) (below : low ≤ line.start) :
    low ≤ (paragraphLine line cursor).offset ∧
      (paragraphLine line cursor).offset +
        (paragraphLine line cursor).content.length ≤ line.contentEnd := by
  have fits := within.length_le
  simp only [paragraphLine, visibleOffset, Line.contentEnd]
  omega

/-- A line keeps an open paragraph in its place. A heading that it completes
leaves no paragraph open. -/
theorem next_within (placed : blocks.Within low line.start)
    (below : low ≤ line.start) (proper : line.start < line.finish) :
    (blocks.next line).1.Within low line.contentEnd ∧
      ∀ span, (blocks.next line).2 = some span →
        span.EndsOn low line ∧ (blocks.next line).1.leaf = .none := by
  have steps := steps_next blocks line
  generalize blocks.next line = result at steps ⊢
  cases steps with
  | hashes containers within marked =>
      refine ⟨within_of_ne_paragraph (by simp) _ _, ?_⟩
      rintro _ ⟨⟩
      exact ⟨hashHeading?_endsOn within below marked, rfl⟩
  | underline containers isOpen marked =>
      refine ⟨within_of_ne_paragraph (by simp) _ _, ?_⟩
      rintro _ ⟨⟩
      exact ⟨underlined?_endsOn proper (placed _ isOpen) marked, rfl⟩
  | leaf containers notParagraph =>
      exact ⟨within_of_ne_paragraph notParagraph _ _, by simp⟩
  | text within visible known =>
      refine ⟨?_, by simp⟩
      intro lines isParagraph held member
      rcases known lines isParagraph held member with
        rfl | ⟨before, isOpen, inside⟩
      · exact paragraphLine_within within below
      · have heldPlaced := placed before isOpen held inside
        exact ⟨heldPlaced.1, heldPlaced.2.trans (Nat.le_add_right _ _)⟩

/-- A heading is marked by hashes on the line that completes it, or is the
paragraph that this line underlines. -/
theorem next_completes {span : HeadingSpan}
    (completes : (blocks.next line).2 = some span) :
    (∃ cursor : Cursor, cursor.visible <:+ line.content ∧
        hashHeading? line cursor = some span) ∨
      ∃ lines level, blocks.leaf = .paragraph lines ∧
        underlined? level lines line = some span := by
  have steps := steps_next blocks line
  generalize blocks.next line = result at steps completes
  cases steps with
  | hashes containers within marked =>
      cases completes
      exact .inl ⟨_, within, marked⟩
  | underline containers isOpen marked =>
      cases completes
      exact .inr ⟨_, _, isOpen, marked⟩
  | leaf containers notParagraph => cases completes
  | text within visible known => cases completes

/-- A heading ends with the line that completes it. -/
theorem next_finish {span : HeadingSpan}
    (completes : (blocks.next line).2 = some span) :
    span.finish = line.finish := by
  rcases next_completes completes with
    ⟨cursor, within, marked⟩ | ⟨lines, level, isOpen, marked⟩
  · exact (hashHeading?_endsOn within (Nat.zero_le _) marked).finish_eq
  · obtain ⟨first, -, last, -, rfl⟩ := underlined?_eq_some marked
    rfl

end OpenBlocks

end ComponentDocs.Markdown
