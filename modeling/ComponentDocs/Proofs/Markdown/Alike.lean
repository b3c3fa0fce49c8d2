import ComponentDocs.Proofs.Markdown.Bounds
import ComponentDocs.Proofs.Markdown.Flat
import ComponentDocs.Proofs.Text.Join
import Mathlib.Data.List.Forall2

/-!
Lines that start with a pipe and that Markdown cannot tell apart, as those of a
table before and after its columns change places, and the blocks that differ in
such lines only.
-/

namespace ComponentDocs.Markdown

/-! ## Rows -/

/-- Two lines that start with a pipe, of one length, which are the same as a
header row, as a delimiter row and as the end of other blocks. -/
structure RowAlike (first second : Text) : Prop where
  plain : IsPlain first
  otherPlain : IsPlain second
  pipe : first.head? = some '|'
  otherPipe : second.head? = some '|'
  length_eq : first.length = second.length
  headerCells?_eq : Marker.headerCells? first = Marker.headerCells? second
  isDelimiterRow_eq : ∀ columns,
    Marker.isDelimiterRow columns first = Marker.isDelimiterRow columns second
  isClosedBy_eq : ∀ block : HtmlBlock,
    block.isClosedBy first = block.isClosedBy second
  closesFence_eq : ∀ mark length,
    Marker.closesFence mark length first =
      Marker.closesFence mark length second

/-- Lines in one place that hold alike rows. -/
structure Line.Alike (line other : Line) : Prop where
  start_eq : line.start = other.start
  content : RowAlike line.content other.content
  ending_eq : line.ending = other.ending

/-- What counts of a line of a paragraph: its place, its length, and how many
cells it has as a header row. -/
def ParagraphLine.view (line : ParagraphLine) : Nat × Nat × Option Nat :=
  (line.offset, line.content.length, Marker.headerCells? line.content)

/-! ## Paragraphs -/

/-- Paragraphs with the same views, of which the same lines are left over
whatever follows. -/
structure ParagraphsAlike (lines others : List ParagraphLine) : Prop where
  view_eq : lines.map ParagraphLine.view = others.map ParagraphLine.view
  kept : ∃ kept keptOther,
    kept ≠ [] ∧
      kept.map ParagraphLine.view = keptOther.map ParagraphLine.view ∧
      ∀ more, withoutDefinitions (lines ++ more) = kept ++ more ∧
        withoutDefinitions (others ++ more) = keptOther ++ more

/-- Paragraphs with the same views. -/
def SameViews (lines others : List ParagraphLine) : Prop :=
  lines.map ParagraphLine.view = others.map ParagraphLine.view

/-- Paragraphs with the same views that are in a relation once rows with the
same view are added to them. -/
structure TakeRows (relation : List ParagraphLine → List ParagraphLine → Prop)
    (lines others : List ParagraphLine) : Prop where
  view_eq : lines.map ParagraphLine.view = others.map ParagraphLine.view
  added : ∀ row other : ParagraphLine, row.view = other.view →
    row.content.head? = some '|' → other.content.head? = some '|' →
      relation (lines ++ [row]) (others ++ [other])

/-- No link reference definition at the start of a paragraph reaches into a
line with a pipe at its start that may follow the paragraph. -/
def IsSettled (lines : List ParagraphLine) : Prop :=
  ∀ (row : ParagraphLine) (more : List ParagraphLine),
    row.content.head? = some '|' →
      withoutDefinitions (lines ++ row :: more) =
        withoutDefinitions lines ++ row :: more

theorem length_le_count_join (texts : List Text) :
    texts.length ≤ (Text.join ['\n'] texts).count '\n' + 1 := by
  induction texts with
  | nil =>
      exact Nat.zero_le _
  | cons first rest inductionHypothesis =>
      cases rest with
      | nil =>
          exact Nat.le_add_left _ _
      | cons second others =>
          simp only [Text.join_cons_cons, List.count_append, List.length_cons,
            List.count_singleton_self] at inductionHypothesis ⊢
          omega

/-- A paragraph that does not start with a bracket starts with no
definition. -/
theorem withoutDefinitions_eq_self {first : ParagraphLine} {character : Char}
    (starts : first.content.head? = some character)
    (noBracket : character ≠ '[') (more : List ParagraphLine) :
    withoutDefinitions (first :: more) = first :: more := by
  obtain ⟨others, shape⟩ : ∃ others,
      Text.join ['\n'] ((first :: more).map ParagraphLine.content) =
        character :: others := by
    obtain ⟨rest, content⟩ := List.head?_eq_some_iff.mp starts
    cases more with
    | nil => exact ⟨rest, content⟩
    | cons second further =>
        rw [List.map_cons, List.map_cons, Text.join_cons_cons, content]
        exact ⟨_, rfl⟩
  have none : LinkReference.after? (character :: others) = .none := by
    unfold LinkReference.after?
    split
    · rename_i isBracket
      exact absurd (List.cons.inj isBracket).1 noBracket
    · rfl
  have enough :=
    length_le_count_join ((first :: more).map ParagraphLine.content)
  have all :
      LinkReference.dropFrom ((first :: more).map ParagraphLine.content) =
        (first :: more).map ParagraphLine.content := by
    rw [shape] at enough
    simp only [LinkReference.dropFrom, shape, List.length_map,
      List.length_cons, LinkReference.skipAll, none] at enough ⊢
    rw [List.isEmpty_cons, if_neg Bool.false_ne_true,
      Nat.sub_eq_zero_of_le enough, List.drop_zero]
  rw [withoutDefinitions, all, List.length_map, Nat.sub_self, List.drop_zero]

theorem isSettled_nil : IsSettled [] := by
  intro row more pipe
  exact withoutDefinitions_eq_self pipe (by decide) more

theorem isSettled_cons {first : ParagraphLine} {character : Char}
    (starts : first.content.head? = some character)
    (noBracket : character ≠ '[') (more : List ParagraphLine) :
    IsSettled (first :: more) := by
  intro row later _
  rw [List.cons_append, withoutDefinitions_eq_self starts noBracket,
    withoutDefinitions_eq_self starts noBracket]
  rfl

theorem IsSettled.takeRows {lines : List ParagraphLine}
    (settled : IsSettled lines) : TakeRows ParagraphsAlike lines lines where
  view_eq := rfl
  added := by
    intro row other sameView pipe otherPipe
    refine ⟨by simp [sameView], withoutDefinitions lines ++ [row],
      withoutDefinitions lines ++ [other], by simp, by simp [sameView],
      fun more => ?_⟩
    simp only [List.append_assoc, List.singleton_append]
    exact ⟨settled row more pipe, settled other more otherPipe⟩

theorem SameViews.takeRows {lines others : List ParagraphLine}
    (same : SameViews lines others) : TakeRows SameViews lines others where
  view_eq := same
  added := by
    intro row other sameView _ _
    rw [SameViews, List.map_append, List.map_append, same]
    exact congrArg (_ ++ [·]) sameView

namespace ParagraphsAlike

variable {lines others : List ParagraphLine}

theorem append (alike : ParagraphsAlike lines others)
    {row other : ParagraphLine} (sameView : row.view = other.view) :
    ParagraphsAlike (lines ++ [row]) (others ++ [other]) := by
  obtain ⟨kept, keptOther, nonempty, sameKept, drops⟩ := alike.kept
  refine ⟨by simp [alike.view_eq, sameView], kept ++ [row],
    keptOther ++ [other], by simp, by simp [sameKept, sameView],
    fun more => ?_⟩
  simp only [List.append_assoc, List.singleton_append]
  exact ⟨(drops (row :: more)).1, (drops (other :: more)).2⟩

theorem takeRows (alike : ParagraphsAlike lines others) :
    TakeRows ParagraphsAlike lines others :=
  ⟨alike.view_eq, fun _ _ sameView _ _ => alike.append sameView⟩

/-- An underline makes one heading of alike paragraphs. -/
theorem exists_underlined? (alike : ParagraphsAlike lines others)
    (level : Nat) (line : Line) :
    ∃ span, underlined? level lines line = some span ∧
      underlined? level others line = some span := by
  obtain ⟨kept, keptOther, nonempty, sameKept, drops⟩ := alike.kept
  have dropped := (drops []).1
  have droppedOther := (drops []).2
  rw [List.append_nil, List.append_nil] at dropped droppedOther
  have nonemptyOther : keptOther ≠ [] := by
    rintro rfl
    exact nonempty (List.map_eq_nil_iff.mp sameKept)
  have firstEq := congrArg List.head? sameKept
  have lastEq := congrArg List.getLast? sameKept
  rw [List.head?_map, List.head?_map, List.head?_eq_some_head nonempty,
    List.head?_eq_some_head nonemptyOther, Option.map_some, Option.map_some,
    Option.some.injEq] at firstEq
  rw [List.getLast?_map, List.getLast?_map,
    List.getLast?_eq_some_getLast nonempty,
    List.getLast?_eq_some_getLast nonemptyOther, Option.map_some,
    Option.map_some, Option.some.injEq] at lastEq
  simp only [ParagraphLine.view, Prod.mk.injEq] at firstEq lastEq
  unfold underlined?
  dsimp only
  rw [dropped, droppedOther, List.head?_eq_some_head nonempty,
    List.head?_eq_some_head nonemptyOther,
    List.getLast?_eq_some_getLast nonempty,
    List.getLast?_eq_some_getLast nonemptyOther]
  dsimp only
  rw [firstEq.1, lastEq.1, lastEq.2.1]
  exact ⟨_, rfl, rfl⟩

end ParagraphsAlike

/-- What delimits a table depends on the view of the line above. -/
theorem delimitsTable_eq_of_view {lines others : List ParagraphLine}
    (view_eq : lines.map ParagraphLine.view = others.map ParagraphLine.view)
    {row other : Text}
    (delimiters : ∀ columns, Marker.isDelimiterRow columns row =
      Marker.isDelimiterRow columns other) :
    delimitsTable lines row = delimitsTable others other := by
  have columns (held : List ParagraphLine) :
      (held.getLast?.bind fun last => Marker.headerCells? last.content) =
        (held.map ParagraphLine.view).getLast?.bind fun view => view.2.2 := by
    rw [List.getLast?_map, Option.bind_map]
    rfl
  rw [delimitsTable, delimitsTable, columns, columns, view_eq]
  cases ((others.map ParagraphLine.view).getLast?.bind _) with
  | none => rfl
  | some count => exact delimiters count

/-! ## Open blocks -/

/-- Leaf blocks that are the same, or paragraphs in a relation. -/
inductive Leaf.Related
    (relation : List ParagraphLine → List ParagraphLine → Prop) :
    Leaf → Leaf → Prop
  | same {leaf : Leaf} (notParagraph : ∀ lines, leaf ≠ .paragraph lines) :
      Leaf.Related relation leaf leaf
  | paragraph {lines others : List ParagraphLine}
      (related : relation lines others) :
      Leaf.Related relation (.paragraph lines) (.paragraph others)

/-- The same containers are open, and the same leaf block but for a paragraph,
which is in a relation. -/
structure OpenBlocks.Related
    (relation : List ParagraphLine → List ParagraphLine → Prop)
    (blocks others : OpenBlocks) : Prop where
  containers_eq : blocks.containers = others.containers
  leaf : blocks.leaf.Related relation others.leaf

/-- An open paragraph, if there is one, takes rows. -/
def OpenBlocks.IsSettled (blocks : OpenBlocks) : Prop :=
  ∀ lines, blocks.leaf = .paragraph lines → Markdown.IsSettled lines

/-- Below the first two of the lines a table is open: a header row and the
delimiter row below it. -/
def OpenBlocks.OpensTable (blocks : OpenBlocks) (lines : List Line) : Prop :=
  (blocks.after (lines.take 2)).leaf = .table

instance (blocks : OpenBlocks) (lines : List Line) :
    Decidable (blocks.OpensTable lines) :=
  inferInstanceAs (Decidable (_ = _))

theorem OpenBlocks.IsSettled.of_paragraph {blocks : OpenBlocks}
    {first : ParagraphLine} {character : Char}
    (isOpen : blocks.leaf = .paragraph [first])
    (starts : first.content.head? = some character)
    (noBracket : character ≠ '[') : blocks.IsSettled := by
  intro lines same
  rw [isOpen, Leaf.paragraph.injEq] at same
  exact same ▸ isSettled_cons starts noBracket []

section Related

variable {relation weaker : List ParagraphLine → List ParagraphLine → Prop}

theorem Leaf.Related.mono {leaf other : Leaf}
    (related : leaf.Related relation other)
    (weakens : ∀ lines others, relation lines others → weaker lines others) :
    leaf.Related weaker other := by
  cases related with
  | same notParagraph => exact .same notParagraph
  | paragraph related => exact .paragraph (weakens _ _ related)

theorem OpenBlocks.Related.mono {blocks others : OpenBlocks}
    (related : blocks.Related relation others)
    (weakens : ∀ lines others, relation lines others → weaker lines others) :
    blocks.Related weaker others :=
  ⟨related.containers_eq, related.leaf.mono weakens⟩

/-- Blocks with the same leaf block, where it is no paragraph, are the same. -/
theorem OpenBlocks.Related.eq {blocks others : OpenBlocks}
    (related : blocks.Related relation others)
    (notParagraph : ∀ lines, blocks.leaf ≠ .paragraph lines) :
    blocks = others := by
  obtain ⟨containers, leaf⟩ := blocks
  obtain ⟨_, otherLeaf⟩ := others
  obtain ⟨rfl, leafRelated⟩ := related
  cases leafRelated with
  | same _ => rfl
  | paragraph _ => exact absurd rfl (notParagraph _)

theorem OpenBlocks.related_self {blocks : OpenBlocks} (reflexive : ∀ lines,
      blocks.leaf = .paragraph lines → relation lines lines) :
    blocks.Related relation blocks := by
  obtain ⟨containers, leaf⟩ := blocks
  refine ⟨rfl, ?_⟩
  cases leaf with
  | paragraph lines => exact .paragraph (reflexive lines rfl)
  | none => exact .same (by simp)
  | fencedCode mark length => exact .same (by simp)
  | indentedCode => exact .same (by simp)
  | html block => exact .same (by simp)
  | table => exact .same (by simp)

end Related

end ComponentDocs.Markdown
