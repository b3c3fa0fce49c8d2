import ComponentDocs.Proofs.Markdown.Alike

/-!
Alike rows in the same place: what one row does to the open blocks, what a line
below does to them, and from both the headings of all lines.
-/

namespace ComponentDocs.Markdown

/-! ## Rows in a place -/

section Row

/-- A line that starts with a pipe continues containers as every such line
does, and is left whole. -/
theorem continueAll_of_pipe (containers : List Container) :
    ∃ continued all, ∀ rest,
      Container.continueAll ⟨0, '|' :: rest⟩ containers =
        (continued, all, ⟨0, '|' :: rest⟩) := by
  induction containers with
  | nil =>
      exact ⟨[], true, fun _ => rfl⟩
  | cons container inner inductionHypothesis =>
      obtain ⟨continued, all, left⟩ := inductionHypothesis
      have indent (rest : Text) : Cursor.indent ⟨0, '|' :: rest⟩ = 0 := rfl
      have notBlank (rest : Text) :
          Cursor.isBlank ⟨0, '|' :: rest⟩ = false := rfl
      have noQuote (rest : Text) :
          Container.startsQuote ⟨0, '|' :: rest⟩ = false := rfl
      cases container with
      | quote =>
          refine ⟨[], false, fun rest => ?_⟩
          rw [Container.continueAll, Container.continue?_quote, noQuote,
            if_neg Bool.false_ne_true]
      | item width hasContent =>
          by_cases narrow : width = 0
          · refine ⟨.item width true :: continued, all, fun rest => ?_⟩
            have kept : Cursor.dropColumns width ⟨0, '|' :: rest⟩ =
                ⟨0, '|' :: rest⟩ := by
              rw [narrow]
              rfl
            rw [Container.continueAll, Container.continue?_item, notBlank,
              if_neg Bool.false_ne_true, indent,
              if_pos (Nat.le_of_eq narrow), kept]
            dsimp only
            rw [left]
          · refine ⟨[], false, fun rest => ?_⟩
            rw [Container.continueAll, Container.continue?_item, notBlank,
              if_neg Bool.false_ne_true, indent,
              if_neg (by omega)]

variable {blocks others : OpenBlocks} {line other : Line}

theorem RowAlike.exists_eq {first second : Text}
    (alike : RowAlike first second) :
    ∃ rest otherRest, first = '|' :: rest ∧ second = '|' :: otherRest := by
  obtain ⟨rest, shape⟩ := List.head?_eq_some_iff.mp alike.pipe
  obtain ⟨otherRest, otherShape⟩ := List.head?_eq_some_iff.mp alike.otherPipe
  exact ⟨rest, otherRest, shape, otherShape⟩

/-- A row continues code and HTML as an alike one does. -/
theorem Leaf.continue?_alike {leaf : Leaf} {rest otherRest : Text}
    (alike : RowAlike ('|' :: rest) ('|' :: otherRest)) :
    leaf.continue? ⟨0, '|' :: rest⟩ = leaf.continue? ⟨0, '|' :: otherRest⟩ := by
  cases leaf with
  | fencedCode mark length =>
      have closes := alike.closesFence_eq mark length
      have visible (tail : Text) :
          Cursor.visible ⟨0, '|' :: tail⟩ = '|' :: tail := rfl
      have indent (tail : Text) : Cursor.indent ⟨0, '|' :: tail⟩ = 0 := rfl
      simp only [Leaf.continue?, visible, indent, closes]
  | html block =>
      have closes := alike.isClosedBy_eq block
      have notBlank (tail : Text) :
          Cursor.isBlank ⟨0, '|' :: tail⟩ = false := rfl
      simp only [Leaf.continue?, notBlank, closes]
  | indentedCode => rfl
  | none => rfl
  | paragraph lines => rfl
  | table => rfl

/-- Below no paragraph a line of text goes on with a table or starts a
paragraph. -/
theorem OpenBlocks.addText_of_not_paragraph {containers : List Container}
    {leaf : Leaf} (notParagraph : ∀ lines, leaf ≠ .paragraph lines)
    (continued : List Container) (above : Above) (added : ParagraphLine)
    (cursor : Cursor) :
    OpenBlocks.addText ⟨containers, leaf⟩ continued above added cursor =
      if above = .table then ⟨continued, .table⟩
      else ⟨continued, .paragraph [added]⟩ := by
  cases leaf with
  | paragraph lines => exact absurd rfl (notParagraph lines)
  | none => cases above <;> rfl
  | fencedCode mark length => cases above <;> rfl
  | indentedCode => cases above <;> rfl
  | html block => cases above <;> rfl
  | table => cases above <;> rfl

/-- Unless it continues the leaf block, a line that starts with a pipe opens a
table or is added as text. -/
theorem OpenBlocks.next_of_pipe {blocks : OpenBlocks} {line : Line}
    {rest : Text} {continued : List Container} {all : Bool}
    (content : line.content = '|' :: rest)
    (left : Container.continueAll ⟨0, '|' :: rest⟩ blocks.containers =
      (continued, all, ⟨0, '|' :: rest⟩)) :
    let above := blocks.leaf.above all ⟨0, '|' :: rest⟩
    blocks.next line =
      match
        if all then blocks.leaf.continue? ⟨0, '|' :: rest⟩ else none with
      | some leaf => (⟨continued, leaf⟩, none)
      | none =>
          (if above.lines?.any (delimitsTable · ('|' :: rest)) then
              ⟨continued, .table⟩
            else
              blocks.addText continued above ⟨line.start, '|' :: rest⟩
                ⟨0, '|' :: rest⟩,
            none) := by
  have starts : Cursor.ofLine line = ⟨0, '|' :: rest⟩ := by
    rw [Cursor.ofLine, content]
  have visible : Cursor.visible ⟨0, '|' :: rest⟩ = '|' :: rest := rfl
  have notBlank : Cursor.isBlank ⟨0, '|' :: rest⟩ = false := rfl
  have added :
      paragraphLine line ⟨0, '|' :: rest⟩ = ⟨line.start, '|' :: rest⟩ := by
    rw [paragraphLine, visibleOffset, visible, Line.contentEnd, content,
      Nat.add_sub_cancel]
  intro above
  rw [OpenBlocks.next, starts, left]
  dsimp only
  cases if all then blocks.leaf.continue? ⟨0, '|' :: rest⟩ else none with
  | some leaf => rfl
  | none =>
      dsimp only
      rw [OpenBlocks.openNew, openBlocks_of_pipe]
      dsimp only
      rw [List.append_nil]
      by_cases delimits :
          above.lines?.any (delimitsTable · ('|' :: rest)) = true
      · rw [if_pos delimits, if_pos delimits]
      · rw [if_neg delimits, if_neg delimits]
        dsimp only
        rw [notBlank, if_neg Bool.false_ne_true, added]
        rfl

/-- What rows may continue does not depend on the row. -/
theorem Leaf.above_of_pipe (leaf : Leaf) (all : Bool) (rest otherRest : Text) :
    leaf.above all ⟨0, '|' :: rest⟩ = leaf.above all ⟨0, '|' :: otherRest⟩ := by
  cases leaf <;> rfl

theorem Leaf.lines?_above_eq_none {leaf : Leaf}
    (notParagraph : ∀ lines, leaf ≠ .paragraph lines) (all : Bool)
    (cursor : Cursor) : (leaf.above all cursor).lines? = Option.none := by
  rw [Option.eq_none_iff_forall_ne_some]
  exact fun lines opened => notParagraph lines (Leaf.above_lines? opened)

/-- A row opens a table, or is a line of text; in both cases it completes no
heading. In the same place alike rows leave the same blocks open but for a
paragraph, of which the rows are a part and which is then in the relation. -/
theorem next_of_rows
    {relation : List ParagraphLine → List ParagraphLine → Prop}
    (started : TakeRows relation [] [])
    (related : blocks.Related (TakeRows relation) others)
    (alike : line.Alike other) :
    (blocks.next line).2 = none ∧ (others.next other).2 = none ∧
      (blocks.next line).1.Related relation (others.next other).1 := by
  obtain ⟨containers, leaf⟩ := blocks
  obtain ⟨_, otherLeaf⟩ := others
  obtain ⟨rfl, leafRelated⟩ := related
  obtain ⟨rest, otherRest, content, otherContent⟩ := alike.content.exists_eq
  have rows : RowAlike ('|' :: rest) ('|' :: otherRest) := by
    rw [← content, ← otherContent]
    exact alike.content
  have sameView :
      ParagraphLine.view ⟨line.start, '|' :: rest⟩ =
        ParagraphLine.view ⟨other.start, '|' :: otherRest⟩ := by
    simp only [ParagraphLine.view, alike.start_eq, rows.length_eq,
      rows.headerCells?_eq]
  obtain ⟨continued, all, left⟩ := continueAll_of_pipe containers
  rw [OpenBlocks.next_of_pipe content (left rest),
    OpenBlocks.next_of_pipe otherContent (left otherRest)]
  dsimp only at leafRelated ⊢
  cases leafRelated with
  | same notParagraph =>
      rw [leaf.above_of_pipe all rest otherRest,
        Leaf.lines?_above_eq_none notParagraph, Leaf.continue?_alike rows]
      cases continues :
          if all then leaf.continue? ⟨0, '|' :: otherRest⟩ else none with
      | some held =>
          rw [Option.ite_none_right_eq_some] at continues
          exact ⟨rfl, rfl, rfl,
            .same (Leaf.continue?_ne_paragraph continues.2)⟩
      | none =>
          refine ⟨rfl, rfl, ?_⟩
          have alone := started.added _ _ sameView rfl rfl
          simp only [Option.any_none, if_neg Bool.false_ne_true,
            OpenBlocks.addText_of_not_paragraph notParagraph]
          split
          · exact ⟨rfl, .same (by simp)⟩
          · exact ⟨rfl, .paragraph alone⟩
  | @paragraph lines others related =>
      have delimits := delimitsTable_eq_of_view related.view_eq
        rows.isDelimiterRow_eq
      have grown := related.added _ _ sameView rfl rfl
      have notContinued (cursor : Cursor) (held : List ParagraphLine) :
          (if all then Leaf.continue? cursor (.paragraph held) else none) =
            none := by
        cases all <;> rfl
      rw [notContinued, notContinued]
      refine ⟨rfl, rfl, ?_⟩
      cases all with
      | true =>
          simp only [Leaf.above, if_pos, Above.lines?, Option.any_some, delimits]
          split
          · exact ⟨rfl, .same (by simp)⟩
          · exact ⟨rfl, .paragraph grown⟩
      | false => exact ⟨rfl, .paragraph grown⟩

end Row

/-! ## Other lines in a place -/

section Below

variable {lines others : List ParagraphLine}
  (alike : ParagraphsAlike lines others)

include alike

theorem underlineOf?_alike (line : Line) (visible : Text) :
    underlineOf? line (.paragraph lines) visible =
      underlineOf? line (.paragraph others) visible := by
  unfold underlineOf?
  dsimp only [Above.lines?]
  cases Marker.underline? visible with
  | none => rfl
  | some level =>
      obtain ⟨span, marked, otherMarked⟩ := alike.exists_underlined? level line
      dsimp only
      rw [marked, otherMarked]

theorem openBlocks_alike (line : Line) (fuel : Nat) (cursor : Cursor) :
    openBlocks line fuel (.paragraph lines) cursor =
      openBlocks line fuel (.paragraph others) cursor := by
  cases fuel with
  | zero => rfl
  | succ fuel =>
      have sameLeaf :
          openLeaf? (.paragraph lines) cursor =
            openLeaf? (.paragraph others) cursor :=
        rfl
      have sameTable (visible : Text) :=
        delimitsTable_eq_of_view alike.view_eq
          fun columns => Eq.refl (Marker.isDelimiterRow columns visible)
      simp only [openBlocks, sameLeaf, underlineOf?_alike alike, Above.lines?,
        Option.any_some, sameTable, Above.takesText, Above.isInner]
      rfl

omit alike in
/-- Where a line is left as text it completes no heading of what is above. -/
theorem underlineOf?_eq_none_of_text {line : Line} {fuel : Nat} {above : Above}
    {cursor left : Cursor} (shown : left.isBlank = false)
    (narrow : left.indent < 4)
    (opens : openBlocks line (fuel + 1) above cursor = ([], .text left)) :
    underlineOf? line above left.visible = none := by
  rw [openBlocks] at opens
  grind

/-- What is left of a line as text below such a paragraph underlines nothing, as
it would make a heading. -/
theorem isUnderline_eq_false {line : Line} (ended : line.isEnded = true)
    {fuel : Nat} {cursor left : Cursor} (shown : left.isBlank = false)
    (opens : openBlocks line (fuel + 1) (.paragraph lines) cursor =
      ([], .text left)) :
    isUnderline left = false := by
  rw [Bool.eq_false_iff]
  intro underlines
  rw [isUnderline, Bool.and_eq_true, decide_eq_true_eq] at underlines
  obtain ⟨level, marked⟩ := Option.isSome_iff_exists.mp underlines.2
  obtain ⟨span, isHeading, -⟩ := alike.exists_underlined? level line
  have completes :
      underlineOf? line (.paragraph lines) left.visible = some span := by
    simp only [underlineOf?, Above.lines?, marked, ended, if_true, isHeading]
  rw [underlineOf?_eq_none_of_text shown underlines.1 opens] at completes
  cases completes

/-- Paragraphs that are the same or alike. -/
def SameOrAlike (lines others : List ParagraphLine) : Prop :=
  lines = others ∨ ParagraphsAlike lines others

omit alike in
theorem OpenBlocks.sameOrAlike_self (blocks : OpenBlocks) :
    blocks.Related SameOrAlike blocks :=
  OpenBlocks.related_self fun _ _ => .inl rfl

/-- A line of text that opens no block is added to alike paragraphs. -/
theorem addText_alike (containers continued : List Container) {line : Line}
    (ended : line.isEnded = true) (all : Bool) {cursor left : Cursor}
    (shown : left.isBlank = false)
    (opens :
      openBlocks line (cursor.rest.length + 1)
          ((Leaf.paragraph lines).above all cursor) cursor =
        ([], .text left)) :
    (OpenBlocks.addText ⟨containers, .paragraph lines⟩ continued
        ((Leaf.paragraph lines).above all cursor) (paragraphLine line left)
        left).Related SameOrAlike
      (OpenBlocks.addText ⟨containers, .paragraph others⟩ continued
        ((Leaf.paragraph others).above all cursor) (paragraphLine line left)
        left) := by
  cases all with
  | false => exact ⟨rfl, .paragraph (.inr (alike.append rfl))⟩
  | true =>
      rw [Leaf.above, if_pos rfl] at opens
      have plain := isUnderline_eq_false alike ended shown opens
      simp only [Leaf.above, if_true, OpenBlocks.addText, plain,
        if_neg Bool.false_ne_true]
      exact ⟨rfl, .paragraph (.inr (alike.append rfl))⟩

/-- Below alike paragraphs a line completes the same heading and, unless it is
the last one, leaves the same blocks open but for the paragraph. -/
theorem openNew_alike (containers : List Container) (line : Line)
    (continued : List Container) (all : Bool) (cursor : Cursor) :
    let opened :=
      OpenBlocks.openNew ⟨containers, .paragraph lines⟩ line continued all
        cursor
    let otherOpened :=
      OpenBlocks.openNew ⟨containers, .paragraph others⟩ line continued all
        cursor
    opened.2 = otherOpened.2 ∧
      (line.isEnded = true →
        opened.1.Related SameOrAlike otherOpened.1) := by
  have sameOpens :
      openBlocks line (cursor.rest.length + 1)
          ((Leaf.paragraph lines).above all cursor) cursor =
        openBlocks line (cursor.rest.length + 1)
          ((Leaf.paragraph others).above all cursor) cursor := by
    cases all with
    | false => rfl
    | true => exact openBlocks_alike alike line _ cursor
  intro opened otherOpened
  simp only [opened, otherOpened, OpenBlocks.openNew, ← sameOpens]
  generalize opens : openBlocks line _ _ cursor = result
  obtain ⟨new, content⟩ := result
  cases content with
  | heading span => exact ⟨rfl, fun _ => OpenBlocks.sameOrAlike_self _⟩
  | leaf leaf => exact ⟨rfl, fun _ => OpenBlocks.sameOrAlike_self _⟩
  | text left =>
      dsimp only
      split
      · exact ⟨rfl, fun _ => OpenBlocks.sameOrAlike_self _⟩
      rename_i shown
      rw [Bool.not_eq_true] at shown
      split
      · rename_i nothing
        rw [List.isEmpty_iff] at nothing
        rw [nothing] at opens
        exact ⟨rfl, fun ended =>
          addText_alike alike containers continued ended all shown opens⟩
      · exact ⟨rfl, fun _ => OpenBlocks.sameOrAlike_self _⟩

end Below

/-- Where the same blocks are open but for alike paragraphs, a line completes
the same heading, and the same holds below it unless it is the last line. -/
theorem next_sameOrAlike {blocks others : OpenBlocks}
    (related : blocks.Related SameOrAlike others) (line : Line) :
    (blocks.next line).2 = (others.next line).2 ∧
      (line.isEnded = true →
        (blocks.next line).1.Related SameOrAlike (others.next line).1) := by
  obtain ⟨containers, leaf⟩ := blocks
  obtain ⟨_, otherLeaf⟩ := others
  obtain ⟨rfl, leafRelated⟩ := related
  dsimp only at leafRelated
  cases leafRelated with
  | same notParagraph => exact ⟨rfl, fun _ => OpenBlocks.sameOrAlike_self _⟩
  | paragraph sameOrAlike =>
      rcases sameOrAlike with rfl | alike
      · exact ⟨rfl, fun _ => OpenBlocks.sameOrAlike_self _⟩
      · simp only [OpenBlocks.next]
        generalize Container.continueAll (Cursor.ofLine line) containers =
          result
        obtain ⟨continued, all, cursor⟩ := result
        have notContinued (held : List ParagraphLine) :
            (if all then Leaf.continue? cursor (.paragraph held) else none) =
              none := by
          cases all <;> rfl
        simp only [notContinued]
        exact openNew_alike alike containers line continued all cursor

/-! ## Headings -/

/-- Only the last of lines may lack an end. -/
def AreEnded (lines : List Line) : Prop :=
  ∀ line ∈ lines.dropLast, line.isEnded = true

/-- Below alike paragraphs the headings are the same. -/
theorem headingSpans_sameOrAlike {blocks others : OpenBlocks}
    {lines : List Line} (ended : AreEnded lines)
    (related : blocks.Related SameOrAlike others) :
    headingSpans blocks lines = headingSpans others lines := by
  induction lines generalizing blocks others with
  | nil => rfl
  | cons line rest inductionHypothesis =>
      obtain ⟨sameHeading, below⟩ := next_sameOrAlike related line
      rw [headingSpans, headingSpans]
      dsimp only
      rw [sameHeading]
      cases rest with
      | nil =>
          cases (others.next line).2 <;> rfl
      | cons second more =>
          rw [AreEnded, List.dropLast_cons_cons, List.forall_mem_cons] at ended
          have relatedBelow := below ended.1
          rw [inductionHypothesis ended.2 relatedBelow,
            relatedBelow.containers_eq]

theorem takeMarks_of_pipe (containers : List Container) {line : Line}
    (pipe : line.content.head? = some '|') (span : HeadingSpan) :
    takeMarks containers (some line) span = span := by
  obtain ⟨rest, content⟩ := List.head?_eq_some_iff.mp pipe
  obtain ⟨continued, all, left⟩ := continueAll_of_pipe containers
  have starts : Cursor.ofLine line = ⟨0, '|' :: rest⟩ := by
    rw [Cursor.ofLine, content]
  have noMarks : continuesWithMarks containers line = false := by
    simp only [continuesWithMarks, starts, left]
    rfl
  simp only [takeMarks, noMarks, if_neg Bool.false_ne_true]

/-- Alike rows in a place hold no heading, and the headings below them are the
same. -/
theorem headingSpans_rows {blocks others : OpenBlocks}
    {rows otherRows below : List Line}
    (alike : List.Forall₂ Line.Alike rows otherRows) (nonempty : rows ≠ [])
    (ended : AreEnded below)
    (related : blocks.Related (TakeRows ParagraphsAlike) others) :
    headingSpans blocks (rows ++ below) =
      headingSpans others (otherRows ++ below) := by
  induction alike generalizing blocks others with
  | nil => exact absurd rfl nonempty
  | @cons row otherRow rest otherRest rowAlike restAlike inductionHypothesis =>
      obtain ⟨noHeading, noOtherHeading, after⟩ :=
        next_of_rows isSettled_nil.takeRows related rowAlike
      rw [List.cons_append, List.cons_append, headingSpans, headingSpans]
      dsimp only
      rw [noHeading, noOtherHeading]
      dsimp only
      cases restAlike with
      | nil =>
          exact headingSpans_sameOrAlike ended <|
            after.mono fun _ _ => .inr
      | cons secondAlike moreAlike =>
          exact inductionHypothesis (List.cons_ne_nil _ _) <|
            after.mono fun _ _ => ParagraphsAlike.takeRows

/-- When the first of alike rows open a table, nothing of a paragraph above
them counts below them. -/
theorem headingSpans_tableRows {blocks others : OpenBlocks}
    {first otherFirst rows otherRows below : List Line}
    (firstAlike : List.Forall₂ Line.Alike first otherFirst)
    (alike : List.Forall₂ Line.Alike rows otherRows) (ended : AreEnded below)
    (related : blocks.Related SameViews others)
    (opens : (blocks.after first).leaf = .table) :
    headingSpans blocks (first ++ (rows ++ below)) =
      headingSpans others (otherFirst ++ (otherRows ++ below)) := by
  induction firstAlike generalizing blocks others with
  | nil =>
      have notParagraph (lines : List ParagraphLine) :
          blocks.leaf ≠ .paragraph lines := by
        rw [show blocks.leaf = .table from opens]
        simp
      obtain rfl := related.eq notParagraph
      cases alike with
      | nil => rfl
      | cons rowAlike restAlike =>
          exact headingSpans_rows (.cons rowAlike restAlike)
            (List.cons_ne_nil _ _) ended <|
              OpenBlocks.related_self fun lines isOpen =>
                absurd isOpen (notParagraph lines)
  | cons rowAlike _ inductionHypothesis =>
      have takes := related.mono fun _ _ => SameViews.takeRows
      obtain ⟨noHeading, noOtherHeading, after⟩ :=
        next_of_rows (SameViews.takeRows rfl) takes rowAlike
      rw [List.cons_append, List.cons_append, headingSpans, headingSpans]
      dsimp only
      rw [noHeading, noOtherHeading]
      exact inductionHypothesis after opens

/-- Alike rows below lines leave all headings as they are, when they open a
table, or else no paragraph that is open above them starts with a definition
that could reach into them. -/
theorem headingSpans_append_rows {blocks : OpenBlocks}
    {above rows otherRows below : List Line}
    (alike : List.Forall₂ Line.Alike rows otherRows) (nonempty : rows ≠ [])
    (ended : AreEnded below)
    (kept : (blocks.after above).IsSettled ∨
      (blocks.after above).OpensTable rows) :
    headingSpans blocks (above ++ (rows ++ below)) =
      headingSpans blocks (above ++ (otherRows ++ below)) := by
  induction above generalizing blocks with
  | nil =>
      rcases kept with settled | opens
      · exact headingSpans_rows alike nonempty ended <|
          OpenBlocks.related_self fun lines isOpen =>
            (settled lines isOpen).takeRows
      · have sameHeadings :=
          headingSpans_tableRows (List.forall₂_take 2 alike)
            (List.forall₂_drop 2 alike) ended
            (OpenBlocks.related_self fun _ _ => rfl) opens
        rwa [← List.append_assoc, List.take_append_drop, ← List.append_assoc,
          List.take_append_drop] at sameHeadings
  | cons line rest inductionHypothesis =>
      have later := inductionHypothesis kept
      have sameMarks (span : HeadingSpan) :
          takeMarks (blocks.next line).1.containers
              (rest ++ (rows ++ below)).head? span =
            takeMarks (blocks.next line).1.containers
              (rest ++ (otherRows ++ below)).head? span := by
        cases rest with
        | cons next further => rfl
        | nil =>
            cases alike with
            | nil => exact absurd rfl nonempty
            | cons rowAlike restAlike =>
                exact (takeMarks_of_pipe _ rowAlike.content.pipe span).trans
                  (takeMarks_of_pipe _ rowAlike.content.otherPipe span).symm
      rw [List.cons_append, List.cons_append, headingSpans, headingSpans]
      dsimp only
      rw [later]
      cases (blocks.next line).2 with
      | none => rfl
      | some span =>
          dsimp only
          rw [sameMarks]

end ComponentDocs.Markdown
