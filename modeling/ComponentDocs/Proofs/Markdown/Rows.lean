import ComponentDocs.Proofs.Markdown.Order
import ComponentDocs.Proofs.Markdown.RowLines

/-!
Rows in a text: alike rows in the same place of a text, whatever stands above
and below them, leave all headings of the text as they are.
-/

namespace ComponentDocs.Markdown

/-! ## Places of lines -/

/-- Where the line feeds of a text stand. -/
def feeds (text : Text) : List Bool :=
  text.map (· == '\n')

theorem length_takeWhile_feeds (text : Text) :
    (text.takeWhile (· != '\n')).length =
      ((feeds text).takeWhile (!·)).length := by
  rw [feeds, List.takeWhile_map, List.length_map]
  rfl

/-- Lines start where the line feeds say. -/
theorem lineStart_eq_of_feeds {text other : Text}
    (same : feeds text = feeds other) (offset : Nat) :
    lineStart text offset = lineStart other offset := by
  have sameLine :
      feeds (text.take offset).reverse = feeds (other.take offset).reverse := by
    simp only [feeds, List.map_reverse, List.map_take] at same ⊢
    rw [same]
  rw [lineStart, lineStart, length_takeWhile_feeds, length_takeWhile_feeds,
    sameLine]

theorem nextLineStart_eq_of_feeds {text other : Text}
    (same : feeds text = feeds other) (offset : Nat) :
    nextLineStart text offset = nextLineStart other offset := by
  have sameLength : text.length = other.length := by
    simpa [feeds] using congrArg List.length same
  have isFeed (held : Text) (place : Nat) :
      held[place]? = some '\n' ↔ (feeds held)[place]? = some true := by
    simp [feeds]
  have sameFeed :
      text[offset - 1]? = some '\n' ↔ other[offset - 1]? = some '\n' := by
    rw [isFeed, isFeed, same]
  have sameRest : feeds (text.drop offset) = feeds (other.drop offset) := by
    simp only [feeds, List.map_drop] at same ⊢
    rw [same]
  unfold nextLineStart
  simp only [sameFeed, length_takeWhile_feeds, sameRest, List.length_drop,
    sameLength]

theorem feeds_of_isPlain {text : Text} (plain : IsPlain text) :
    feeds text = List.replicate text.length false := by
  rw [feeds, List.eq_replicate_iff]
  refine ⟨List.length_map _, fun feed member => ?_⟩
  obtain ⟨character, isCharacter, rfl⟩ := List.mem_map.mp member
  rw [beq_eq_false_iff_ne]
  rintro rfl
  exact plain.noFeed isCharacter

theorem feeds_join_of_alike {rows others : List Text}
    (alike : List.Forall₂ RowAlike rows others) (ending : Text) :
    feeds (Text.join ending rows) = feeds (Text.join ending others) := by
  induction alike with
  | nil => rfl
  | @cons row other rest otherRest rowAlike restAlike inductionHypothesis =>
      have sameRow : feeds row = feeds other := by
        rw [feeds_of_isPlain rowAlike.plain,
          feeds_of_isPlain rowAlike.otherPlain, rowAlike.length_eq]
      cases restAlike with
      | nil => exact sameRow
      | cons secondAlike moreAlike =>
          simp only [Text.join_cons_cons, feeds, List.map_append]
            at inductionHypothesis sameRow ⊢
          rw [sameRow, inductionHypothesis]

/-! ## Headings -/

/-- A heading with its lines stands on one side of a piece of its text. -/
def Heading.Avoids (start stop : Nat) (heading : Heading) : Prop :=
  (heading.start ≤ start ∧ heading.bodyStart ≤ start) ∨
    (stop ≤ heading.start ∧ stop ≤ heading.bodyStart)

instance (start stop : Nat) (heading : Heading) :
    Decidable (heading.Avoids start stop) :=
  inferInstanceAs (Decidable (_ ∨ _))

/-- A heading on one side of a piece has the same name and place with another
piece that has its line feeds in the same places. -/
theorem heading_eq_of_avoids {above piece other below : Text}
    (same : feeds piece = feeds other) {span : HeadingSpan}
    (ordered : span.IsOrdered)
    (fits : span.FitsIn (above ++ (piece ++ below)).length)
    (avoids : (span.heading (above ++ (piece ++ below))).Avoids above.length
      (above ++ piece).length) :
    span.heading (above ++ (other ++ below)) =
      span.heading (above ++ (piece ++ below)) := by
  have sameFeeds :
      feeds (above ++ (other ++ below)) =
        feeds (above ++ (piece ++ below)) := by
    simp only [feeds, List.map_append] at same ⊢
    rw [same]
  have sameLength : piece.length = other.length := by
    simpa [feeds] using congrArg List.length same
  have sameText :
      ((above ++ (other ++ below)).take span.textEnd).drop span.textStart =
        ((above ++ (piece ++ below)).take span.textEnd).drop
          span.textStart := by
    have startPlace := lineStart_le (above ++ (piece ++ below)) span.start
    have endPlace := le_nextLineStart (above ++ (piece ++ below)) span.finish
    rw [Nat.min_eq_left fits.finish_le] at endPlace
    rcases avoids with ⟨-, before⟩ | ⟨behind, -⟩
    · have inAbove : span.textEnd ≤ above.length :=
        ordered.textEnd_le.trans (endPlace.trans before)
      rw [List.take_append_of_le_length inAbove,
        List.take_append_of_le_length inAbove]
    · have inBelow : (above ++ piece).length ≤ span.textStart :=
        behind.trans (startPlace.trans ordered.start_le)
      have behindOther : (above ++ other).length ≤ span.textStart := by
        rw [List.length_append, ← sameLength, ← List.length_append]
        exact inBelow
      have dropped (first : Text) (inside : first.length ≤ span.textStart) :
          (first ++ below).drop span.textStart =
            below.drop (span.textStart - first.length) := by
        rw [List.drop_append, List.drop_eq_nil_of_le inside, List.nil_append]
      rw [List.drop_take, List.drop_take, ← List.append_assoc,
        ← List.append_assoc, dropped _ behindOther, dropped _ inBelow,
        List.length_append, List.length_append, sameLength]
  rw [HeadingSpan.heading, HeadingSpan.heading, sameText,
    lineStart_eq_of_feeds sameFeeds, nextLineStart_eq_of_feeds sameFeeds]

/-- A place for the rows of a table: between two lines, where no heading is on
them. They open a table in Markdown too, or else no link reference definition
that starts above reaches into them. -/
structure TakesTable (above table below : Text) : Prop where
  starts : StartsLine above
  ends : EndsLine below
  kept : (openAtEnd above).IsSettled ∨
    (openAtEnd above).OpensTable (Line.cut above.length [] (table ++ below))
  apart : ∀ heading ∈ headings (above ++ (table ++ below)),
    heading.Avoids above.length (above ++ table).length

theorem head?_join_append {first : Text} {character : Char}
    (starts : first.head? = some character) (separator : Text)
    (rest : List Text) (below : Text) :
    (Text.join separator (first :: rest) ++ below).head? = some character := by
  rw [List.head?_append, Text.head?_join starts, Option.some_or]

/-- Alike rows start with a pipe in both texts. -/
theorem pipes_of_alike {rows others : List Line}
    (alike : List.Forall₂ Line.Alike rows others) :
    (∀ line ∈ rows, line.content.head? = some '|') ∧
      ∀ line ∈ others, line.content.head? = some '|' := by
  induction alike with
  | nil => simp
  | cons rowAlike _ inductionHypothesis =>
      rw [List.forall_mem_cons, List.forall_mem_cons]
      exact ⟨⟨rowAlike.content.pipe, inductionHypothesis.1⟩,
        rowAlike.content.otherPipe, inductionHypothesis.2⟩

section Place

variable {above below ending : Text} {rows others : List Text}
  (alike : List.Forall₂ RowAlike rows others) (several : 2 ≤ rows.length)
  (isEnding : IsEnding ending)
  (place : TakesTable above (Text.join ending rows) below)

include alike several isEnding place

theorem headingSpans_blockLines_rows :
    headingSpans .initial
        (blockLines (above ++ (Text.join ending rows ++ below))) =
      headingSpans .initial
        (blockLines (above ++ (Text.join ending others ++ below))) := by
  obtain ⟨lines, aboveLines, append⟩ := exists_blockLines_append place.starts
  have nonempty : rows ≠ [] :=
    List.ne_nil_of_length_pos (by omega)
  obtain ⟨rowLines, otherLines, stop, rest, cuts, otherCuts, linesAlike,
    sameNumber⟩ :=
      exists_cut_rows alike nonempty isEnding place.ends above.length
  have someLine : rowLines ≠ [] :=
    List.ne_nil_of_length_pos (by omega)
  have kept : (openAtEnd above).IsSettled ∨
      (openAtEnd above).OpensTable rowLines := by
    have inPlace := place.kept
    rwa [cuts, OpenBlocks.OpensTable, List.take_append_of_le_length (by omega)]
      at inPlace
  obtain ⟨pipes, otherPipes⟩ := pipes_of_alike linesAlike
  have otherSomeLine : otherLines ≠ [] := by
    rintro rfl
    exact someLine (List.forall₂_nil_right_iff.mp linesAlike)
  have startsRow :
      (Text.join ending rows ++ below).head? = some '|' ∧
        (Text.join ending others ++ below).head? = some '|' := by
    cases alike with
    | nil => exact absurd rfl nonempty
    | cons rowAlike _ =>
        exact ⟨head?_join_append rowAlike.pipe _ _ _,
          head?_join_append rowAlike.otherPipe _ _ _⟩
  rw [append _ startsRow.1, append _ startsRow.2, cuts, otherCuts]
  rcases withoutMetadata_rows lines (Line.cut stop [] rest) with
    counts | ⟨counted, counts⟩
  · rw [counts rowLines someLine pipes, counts otherLines otherSomeLine
      otherPipes, ← aboveLines]
    exact headingSpans_append_rows linesAlike someLine (areEnded_cut _ _ _)
      kept
  -- The rows are part of a metadata block.
  · rw [counts rowLines someLine pipes,
      counts otherLines otherSomeLine otherPipes]

/-- Alike rows in the place of others leave all headings of a text as they
are. -/
theorem headings_rows :
    headings (above ++ (Text.join ending others ++ below)) =
      headings (above ++ (Text.join ending rows ++ below)) := by
  have sameSpans :=
    headingSpans_blockLines_rows alike several isEnding place
  rw [headings, headings, ← sameSpans]
  apply List.map_congr_left
  intro span member
  have successive :=
    successive_blockLines (above ++ (Text.join ending rows ++ below))
  have within := OpenBlocks.within_initial 0 0
  exact heading_eq_of_avoids (feeds_join_of_alike alike ending)
    (isOrdered_of_mem_headingSpans successive within span member)
    (fitsIn_of_mem_headingSpans successive within span member)
    (place.apart _ (List.mem_map_of_mem member))

end Place

end ComponentDocs.Markdown
