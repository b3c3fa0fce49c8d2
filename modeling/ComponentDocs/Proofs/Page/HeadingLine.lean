import ComponentDocs.Proofs.Markdown.RowLines
import ComponentDocs.Proofs.Page.OpenSection

/-!
Decorated heading lines: an anchor and closing hashes behind the name. Either of
them is left away when the section of the name is looked up. An anchor in front
of closing hashes is not: it is looked for before the hashes are dropped, and
does not end the line then.
-/

namespace ComponentDocs.Page

open ComponentDocs.Markdown

/-- A name on a single line without blanks at its ends, hashes and closing
braces. -/
structure IsBareName (name : Text) : Prop where
  plain : IsPlain name
  nonempty : name ≠ []
  trimmed : Text.trim name = name
  noHash : '#' ∉ name
  noBrace : '\x7d' ∉ name

/-- A heading line: a level, a name, an anchor if any, and a number of closing
hashes. -/
structure HeadingLine where
  level : Nat
  name : Text
  anchor : Option Text
  closing : Nat
  level_bounds : 1 ≤ level ∧ level ≤ 6
  named : IsBareName name
  anchored : ∀ id ∈ anchor, IsPlain id ∧ '\x7b' ∉ id

namespace HeadingLine

/-- An anchor as it is written, behind a space. -/
def anchorText (id : Text) : Text :=
  [' ', '\x7b', '#'] ++ id ++ ['\x7d']

/-- The name with the anchor behind it. -/
def labelled (heading : HeadingLine) : Text :=
  heading.name ++ (heading.anchor.map anchorText).getD []

/-- All that is written behind the hashes of the level. -/
def written (heading : HeadingLine) : Text :=
  match heading.closing with
  | 0 => heading.labelled
  | count + 1 => heading.labelled ++ [' '] ++ List.replicate (count + 1) '#'

def line (heading : HeadingLine) : Text :=
  hashLine heading.level heading.written

variable (heading : HeadingLine)

/-! ## What is written -/

theorem labelled_of_anchor {id : Text} (anchored : heading.anchor = some id) :
    heading.labelled =
      heading.name ++ ([' ', '\x7b', '#'] ++ id) ++ ['\x7d'] := by
  rw [labelled, anchored, Option.map_some, Option.getD_some, anchorText,
    ← List.append_assoc]

theorem labelled_of_no_anchor (bare : heading.anchor = none) :
    heading.labelled = heading.name := by
  rw [labelled, bare, Option.map_none, Option.getD_none, List.append_nil]

theorem labelled_ne_nil : heading.labelled ≠ [] := by
  rw [labelled]
  exact List.append_ne_nil_of_left_ne_nil heading.named.nonempty _

theorem trim_labelled : Text.trim heading.labelled = heading.labelled := by
  cases anchored : heading.anchor with
  | none =>
      rw [heading.labelled_of_no_anchor anchored]
      exact heading.named.trimmed
  | some id =>
      rw [heading.labelled_of_anchor anchored]
      exact Text.trim_append_eq_self _ heading.named.trimmed
        heading.named.nonempty (by decide) (by decide)

theorem isPlain_labelled : IsPlain heading.labelled := by
  cases anchored : heading.anchor with
  | none =>
      rw [heading.labelled_of_no_anchor anchored]
      exact heading.named.plain
  | some id =>
      obtain ⟨plain, -⟩ := heading.anchored id anchored
      rw [heading.labelled_of_anchor anchored]
      constructor
      · simpa using ⟨heading.named.plain.noFeed, plain.noFeed⟩
      · simpa using ⟨heading.named.plain.noReturn, plain.noReturn⟩

theorem written_ne_nil : heading.written ≠ [] := by
  rw [written]
  split
  · exact heading.labelled_ne_nil
  · simp

theorem trim_written : Text.trim heading.written = heading.written := by
  rw [written]
  split
  · exact heading.trim_labelled
  · apply Text.trim_append_eq_self _ heading.trim_labelled
      heading.labelled_ne_nil _ (by simp)
    apply Text.trim_eq_self_of_visible
    intro character member
    rw [List.eq_of_mem_replicate member]
    rfl

theorem isPlain_written : IsPlain heading.written := by
  rw [written]
  split
  · exact heading.isPlain_labelled
  · constructor
    · simpa using heading.isPlain_labelled.noFeed
    · simpa using heading.isPlain_labelled.noReturn

/-! ## The name of the heading -/

/-- The last anchor mark is the one of the anchor that ends the text. -/
theorem beforeAnchor?_append {reversed : Text} (noBrace : '\x7b' ∉ reversed)
    (rest : Text) :
    headingName.beforeAnchor? (reversed ++ '#' :: '\x7b' :: rest) =
      some rest := by
  induction reversed with
  | nil => rfl
  | cons first others inductionHypothesis =>
      have later := inductionHypothesis fun member =>
        noBrace (List.mem_cons_of_mem _ member)
      rw [List.cons_append, headingName.beforeAnchor?.eq_2, later]
      rintro tail rfl shape
      cases others with
      | nil => cases shape
      | cons second more =>
          cases shape
          simp at noBrace

theorem withoutAnchor_labelled :
    headingName.withoutAnchor heading.labelled = heading.name := by
  cases anchored : heading.anchor with
  | none =>
      rw [heading.labelled_of_no_anchor anchored, headingName.withoutAnchor,
        if_neg]
      exact fun ends => heading.named.noBrace (List.mem_of_getLast? ends)
  | some id =>
      have noBrace : '\x7b' ∉ id.reverse := by
        simpa using (heading.anchored id anchored).2
      have reversed :
          (heading.name ++ ([' ', '\x7b', '#'] ++ id)).reverse =
            id.reverse ++ '#' :: '\x7b' :: (' ' :: heading.name.reverse) := by
        simp
      rw [heading.labelled_of_anchor anchored, headingName.withoutAnchor,
        if_pos (List.getLast?_concat ..), List.dropLast_concat, reversed,
        beforeAnchor?_append noBrace]
      dsimp only
      rw [List.reverse_cons, List.reverse_reverse, Text.trimEnd,
        Text.dropEndWhile_append _ _ fun _ => Text.isBlank_of_mem_space]
      exact Text.trimEnd_eq_self heading.named.trimmed

/-- With closing hashes the anchor stays in the name of the heading. -/
theorem headingName_written :
    headingName heading.written =
      if heading.closing = 0 then heading.name else heading.labelled := by
  rw [headingName, heading.trim_written, written]
  cases heading.closing with
  | zero =>
      have kept :
          Text.dropEndWhile (· == '#') heading.name = heading.name := by
        apply Text.dropEndWhile_eq_self
        intro last ends
        rw [beq_eq_false_iff_ne]
        rintro rfl
        exact heading.named.noHash (List.mem_of_getLast? ends)
      dsimp only
      rw [heading.withoutAnchor_labelled, kept, if_pos rfl]
      exact Text.trimEnd_eq_self heading.named.trimmed
  | succ count =>
      have ends :
          (heading.labelled ++ [' '] ++
            List.replicate (count + 1) '#').getLast? = some '#' := by
        rw [List.replicate_succ', ← List.append_assoc, List.getLast?_concat]
      have dropped :
          Text.dropEndWhile (· == '#')
              (heading.labelled ++ [' '] ++ List.replicate (count + 1) '#') =
            heading.labelled ++ [' '] := by
        rw [Text.dropEndWhile_append _ _ fun character member => by
          rw [List.eq_of_mem_replicate member]
          rfl]
        rw [Text.dropEndWhile_concat, if_neg (by decide)]
      dsimp only
      rw [headingName.withoutAnchor, ends, if_neg (by decide), dropped,
        if_neg (Nat.succ_ne_zero count), Text.trimEnd,
        Text.dropEndWhile_append _ _ fun _ => Text.isBlank_of_mem_space]
      exact Text.trimEnd_eq_self heading.trim_labelled

/-! ## The page below the line -/

theorem next_line (ending : Text) :
    OpenBlocks.initial.next ⟨0, heading.line, ending⟩ =
      (.initial, some
        (hashSpan heading.level heading.written ⟨0, heading.line, ending⟩)) :=
  OpenBlocks.isFlat_initial.next_of_hashLine
    heading.level_bounds.1 heading.level_bounds.2
    heading.written_ne_nil heading.trim_written rfl

section Below

variable {ending : Text} (ends : IsEnding ending)

include ends

theorem startsLine_line : StartsLine (heading.line ++ ending) :=
  startsLine_of_isEnding _ ends

/-- The heading line is the first line of a page, and all lines count. -/
theorem blockLines_line (body : Text) :
    blockLines (heading.line ++ ending ++ body) =
      ⟨0, heading.line, ending⟩ ::
        Line.cut (heading.line ++ ending).length [] body := by
  obtain ⟨rest, starts⟩ : ∃ rest, heading.line = '#' :: rest := by
    obtain ⟨fewer, level_eq⟩ := Nat.exists_eq_add_of_le' heading.level_bounds.1
    exact ⟨_, by rw [line, hashLine, level_eq, List.replicate_succ]; rfl⟩
  have cut_eq :
      Line.cut 0 [] (heading.line ++ ending ++ body) =
        ⟨0, heading.line, ending⟩ ::
          Line.cut (heading.line ++ ending).length [] body := by
    have plain : IsPlain heading.line :=
      isPlain_hashLine _ heading.isPlain_written
    rw [List.append_assoc, cut_line_ending 0 plain ends, Nat.zero_add,
      List.length_append]
  have noMark :
      metadataMark? ⟨0, heading.line, ending⟩ = none := by
    apply metadataMark?_eq_none
    intro first isFirst
    rw [starts] at isFirst
    cases isFirst
    exact .inr (.inr rfl)
  have plain :
      blockLines (heading.line ++ ending ++ body) =
        withoutMetadata
          (Line.cut 0 [] (heading.line ++ ending ++ body)) := by
    rw [starts]
    rfl
  rw [plain, cut_eq, withoutMetadata, noMark]
  rfl

theorem blockLines_alone :
    blockLines (heading.line ++ ending) = [⟨0, heading.line, ending⟩] := by
  have whole := heading.blockLines_line ends []
  rwa [List.append_nil, Line.cut] at whole

theorem openAtEnd_line :
    openAtEnd (heading.line ++ ending) = .initial := by
  rw [openAtEnd, heading.blockLines_alone ends]
  exact congrArg Prod.fst (heading.next_line ending)

/-- Alone the line gives one heading, named by what is left of the text. -/
theorem headings_line :
    headings (heading.line ++ ending) =
      [⟨heading.level, headingName heading.written, 0,
        (heading.line ++ ending).length⟩] := by
  have text_eq :
      ((heading.line ++ ending).take heading.line.length).drop
          (heading.line.length - heading.written.length) =
        heading.written := by
    rw [List.take_left, line, hashLine, ← List.singleton_append,
      ← List.append_assoc, List.length_append, Nat.add_sub_cancel,
      List.drop_left]
  rw [headings, heading.blockLines_alone ends, headingSpans]
  dsimp only
  rw [heading.next_line ending]
  -- No container is open whose marks the heading could take.
  change
    [(hashSpan heading.level heading.written
      ⟨0, heading.line, ending⟩).heading (heading.line ++ ending)] = _
  simp only [HeadingSpan.heading, hashSpan, Line.contentEnd, Line.finish,
    Nat.zero_add, text_eq, ← List.length_append, nextLineStart_length,
    lineStart, Nat.zero_sub]

theorem splits_line (body : Text) : Splits (heading.line ++ ending) body := by
  apply splits_of_afresh (heading.startsLine_line ends)
  · rw [KeepsLines, heading.blockLines_line ends, heading.blockLines_alone ends]
    rfl
  · rw [heading.openAtEnd_line ends]
    exact fun _ _ => rfl
  · rw [heading.openAtEnd_line ends]

/-- The section of the name goes on below the line. -/
theorem openSection?_line {asked : Text}
    (named : Text.sameIgnoringCase (headingName heading.written)
      (Text.trim asked) = true) :
    openSection? (heading.line ++ ending) asked = some (heading.level, []) := by
  have isNamed :
      isNamed asked ⟨heading.level, headingName heading.written, 0,
        (heading.line ++ ending).length⟩ = true :=
    named
  rw [openSection?, heading.headings_line ends, headingFrom?, if_pos isNamed]
  dsimp only
  rw [List.all_nil, if_pos rfl, List.drop_length]

end Below

/-- The anchor is not taken for one. -/
def HidesAnchor : Prop :=
  heading.anchor.isSome = true ∧ heading.closing ≠ 0

instance : Decidable heading.HidesAnchor :=
  inferInstanceAs (Decidable (_ ∧ _))

theorem headingName_of_not_hidesAnchor (shown : ¬ heading.HidesAnchor) :
    headingName heading.written = heading.name := by
  rw [headingName_written]
  split
  · rfl
  · rename_i closed
    apply heading.labelled_of_no_anchor
    by_contra anchored
    exact shown ⟨Option.isSome_iff_ne_none.mpr anchored, closed⟩

/-- A hidden anchor makes the name longer. -/
theorem lt_length_headingName (hides : heading.HidesAnchor) :
    heading.name.length < (headingName heading.written).length := by
  obtain ⟨id, anchored⟩ := Option.isSome_iff_exists.mp hides.1
  rw [headingName_written, if_neg hides.2,
    heading.labelled_of_anchor anchored]
  simp

/-- Below a heading line, the section of its name is all that follows, as long
as no heading does, except when closing hashes hide an anchor. -/
theorem block?_line {ending body asked : Text} (ends : IsEnding ending)
    (alone : ∀ other ∈ headings (heading.line ++ ending ++ body),
      other.start < (heading.line ++ ending).length)
    (asks : Text.sameIgnoringCase (Text.trim asked) heading.name = true) :
    block? (heading.line ++ ending ++ body) asked =
      if heading.HidesAnchor then none else some (trimLineEnds body) := by
  have splits := heading.splits_line ends body
  have noneBelow : innerHeadings body = [] := by
    rw [List.eq_nil_iff_forall_not_mem]
    intro inner member
    have above := alone (inner.shift (heading.line ++ ending).length) <| by
      rw [splits]
      exact List.mem_append_right _ (List.mem_map_of_mem member)
    rw [Heading.shift] at above
    dsimp only at above
    omega
  have sameLetters :
      (Text.trim asked).map Char.toLower = heading.name.map Char.toLower := by
    simpa [Text.sameIgnoringCase] using asks
  split
  · rename_i hides
    have longer := heading.lt_length_headingName hides
    have notNamed :
        isNamed asked ⟨heading.level, headingName heading.written, 0,
          (heading.line ++ ending).length⟩ = false := by
      rw [isNamed, Text.sameIgnoringCase, beq_eq_false_iff_ne, sameLetters]
      intro same
      have sameLength := congrArg List.length same
      rw [List.length_map, List.length_map] at sameLength
      exact longer.ne' sameLength
    rw [block?, splits, heading.headings_line ends, noneBelow, List.map_nil,
      List.append_nil, headingFrom?, notNamed, headingFrom?]
    rfl
  · rename_i shown
    have named :
        Text.sameIgnoringCase (headingName heading.written)
          (Text.trim asked) = true := by
      rw [heading.headingName_of_not_hidesAnchor shown]
      simp [Text.sameIgnoringCase, sameLetters]
    rw [block?_of_open splits (heading.openSection?_line ends named),
      sectionRest, noneBelow, List.nil_append]
    congr 2
    exact List.take_length

/-- A heading with an anchor. -/
def anchoredHeading : HeadingLine where
  level := 3
  name := "API Reference 2".toList
  anchor := some "api-2".toList
  closing := 0
  level_bounds := by decide
  named :=
    ⟨⟨by decide, by decide⟩, by decide, by decide +kernel, by decide, by decide⟩
  anchored := by
    rintro id ⟨⟩
    exact ⟨⟨by decide, by decide⟩, by decide⟩

/-- A paragraph and a table below the heading with the anchor, which is asked
for in other letters. -/
theorem block?_anchoredHeading :
    let body := "Rows.\n\n| Name | Type |\n| --- | --- |\n| a | b |\n\n".toList
    let page := anchoredHeading.line ++ ['\r', '\n'] ++ body
    let asked := " api reference 2 ".toList
    IsEnding ['\r', '\n'] ∧
      (∀ other ∈ headings page,
        other.start < (anchoredHeading.line ++ ['\r', '\n']).length) ∧
      Text.sameIgnoringCase (Text.trim asked) anchoredHeading.name = true ∧
      block? page asked = some
        "Rows.\n\n| Name | Type |\n| --- | --- |\n| a | b |".toList := by
  intro body page asked
  have ends : IsEnding ['\r', '\n'] := .inr rfl
  have alone : ∀ other ∈ headings page,
      other.start < (anchoredHeading.line ++ ['\r', '\n']).length := by
    decide +kernel
  have asks :
      Text.sameIgnoringCase (Text.trim asked) anchoredHeading.name = true := by
    decide +kernel
  refine ⟨ends, alone, asks, ?_⟩
  have found := anchoredHeading.block?_line ends alone asks
  rw [if_neg (by decide)] at found
  exact found.trans (by decide +kernel)

/-- A heading with an anchor in front of closing hashes. -/
def closedHeading : HeadingLine where
  level := 2
  name := "API".toList
  anchor := some "api".toList
  closing := 2
  level_bounds := by decide
  named :=
    ⟨⟨by decide, by decide⟩, by decide, by decide, by decide, by decide⟩
  anchored := by
    rintro id ⟨⟩
    exact ⟨⟨by decide, by decide⟩, by decide⟩

/-- The section of a heading with both decorations is not found. -/
theorem block?_closedHeading :
    closedHeading.line = "## API \x7b#api\x7d ##".toList ∧
      (headings (closedHeading.line ++ "\nrows\n".toList)).length = 1 ∧
      block? (closedHeading.line ++ "\nrows\n".toList) closedHeading.name =
        none ∧
      trimLineEnds "rows\n".toList = "rows".toList := by
  decide +kernel

end HeadingLine

end ComponentDocs.Page
