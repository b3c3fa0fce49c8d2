import ComponentDocs.Proofs.Markdown.Break
import Mathlib.Data.List.Infix

/-!
The order of the headings of a text: each starts above its body, and between
the lines on which two headings start stands visible text, unless a carriage
return without a line feed puts both on one line.
-/

namespace ComponentDocs.Markdown

/-! ## Lines in their text -/

/-- How a line stands in its text: up to a line feed, to a carriage return
without one, or to the end of the text. -/
structure Line.StandsIn (text : Text) (line : Line) : Prop where
  plain : IsPlain line.content
  exists_around : ∃ above below : Text,
    text = above ++ (line.content ++ (line.ending ++ below)) ∧
      above.length = line.start ∧
      (IsEnding line.ending ∨
        (line.ending = ['\r'] ∧ below.head? ≠ some '\n') ∨
        (line.ending = [] ∧ below = []))

theorem standsIn_cut {start : Nat} (above : Text) {held text : Text}
    (place : above.length = start) (plain : IsPlain held) :
    ∀ line ∈ Line.cut start held text,
      line.StandsIn (above ++ (held.reverse ++ text)) := by
  -- Each line stands above those that are cut after it.
  fun_induction Line.cut start held text generalizing above with
  | case1 start held empty =>
      simp
  | case2 start held nonempty =>
      intro line member
      rw [List.mem_singleton.mp member]
      exact ⟨plain.reverse, above, [], by simp, place, .inr (.inr ⟨rfl, rfl⟩)⟩
  | case3 start held rest inductionHypothesis =>
      refine List.forall_mem_cons.mpr ⟨⟨plain.reverse, above, rest, by simp,
        place, .inl (.inl rfl)⟩, ?_⟩
      have below := inductionHypothesis
        (above ++ (held.reverse ++ ['\n']))
        (by simp [place, Nat.add_assoc]) isPlain_nil
      simpa using below
  | case4 start held rest inductionHypothesis =>
      refine List.forall_mem_cons.mpr ⟨⟨plain.reverse, above, rest, by simp,
        place, .inl (.inr rfl)⟩, ?_⟩
      have below := inductionHypothesis
        (above ++ (held.reverse ++ ['\r', '\n']))
        (by simp [place, Nat.add_assoc]) isPlain_nil
      simpa using below
  | case5 start held rest notFed inductionHypothesis =>
      have notFeed : rest.head? ≠ some '\n' := by
        intro isFeed
        obtain ⟨tail, rfl⟩ := List.head?_eq_some_iff.mp isFeed
        exact notFed tail rfl
      refine List.forall_mem_cons.mpr ⟨⟨plain.reverse, above, rest, by simp,
        place, .inr (.inl ⟨rfl, notFeed⟩)⟩, ?_⟩
      have below := inductionHypothesis
        (above ++ (held.reverse ++ ['\r']))
        (by simp [place, Nat.add_assoc]) isPlain_nil
      simpa using below
  | case6 start held first rest notFeed notFed notReturn
      inductionHypothesis =>
      have longer := inductionHypothesis above place
        (plain.cons notFeed notReturn)
      simpa using longer

theorem standsIn_blockLines (text : Text) :
    ∀ line ∈ blockLines text, line.StandsIn text := by
  intro line member
  unfold blockLines at member
  split at member
  · exact standsIn_cut ['\ufeff'] rfl isPlain_nil line
      ((withoutMetadata_suffix _).subset member)
  · exact standsIn_cut [] rfl isPlain_nil line
      ((withoutMetadata_suffix _).subset member)

/-! ## Visible characters -/

/-- A character that ends no line stands at an offset. -/
def ShowsAt (text : Text) (offset : Nat) : Prop :=
  ∃ character, text[offset]? = some character ∧
    character ≠ '\n' ∧ character ≠ '\r'

theorem ShowsAt.lt_length {text : Text} {offset : Nat}
    (shows : ShowsAt text offset) : offset < text.length := by
  obtain ⟨character, isCharacter, -⟩ := shows
  exact (List.getElem?_eq_some_iff.mp isCharacter).1

/-- The visible rest of a line starts with a visible character. -/
theorem Line.StandsIn.showsAt {text : Text} {line : Line} {cursor : Cursor}
    (stands : line.StandsIn text) (within : cursor.visible <:+ line.content)
    (visible : cursor.isBlank = false) :
    ShowsAt text (visibleOffset line cursor) := by
  obtain ⟨plain, above, below, rfl, place, -⟩ := stands
  obtain ⟨before, parts⟩ := within
  rw [Cursor.isBlank] at visible
  cases rest : cursor.visible with
  | nil =>
      rw [rest] at visible
      cases visible
  | cons first later =>
      rw [rest] at parts
      have offset_eq :
          visibleOffset line cursor = (above ++ before).length := by
        simp only [visibleOffset, Line.contentEnd, ← parts, rest,
          List.length_append, place]
        omega
      have member : first ∈ line.content := by
        simp [← parts]
      refine ⟨first, ?_, ?_, ?_⟩
      · rw [offset_eq, ← parts]
        simp
      · rintro rfl
        exact plain.noFeed member
      · rintro rfl
        exact plain.noReturn member

/-- The lines of an open paragraph start with visible characters of the
text. -/
def OpenBlocks.Shown (text : Text) (blocks : OpenBlocks) : Prop :=
  ∀ lines, blocks.leaf = .paragraph lines →
    ∀ line ∈ lines, ShowsAt text line.offset

theorem OpenBlocks.shown_of_ne_paragraph {text : Text} {blocks : OpenBlocks}
    (notParagraph : ∀ lines, blocks.leaf ≠ .paragraph lines) :
    blocks.Shown text :=
  fun lines isParagraph => absurd isParagraph (notParagraph lines)

theorem OpenBlocks.shown_initial (text : Text) : initial.Shown text :=
  shown_of_ne_paragraph (by simp [initial])

/-- A line of the text keeps the paragraph lines visible, and so is the start
of a heading that it completes. -/
theorem OpenBlocks.next_shown {text : Text} {blocks : OpenBlocks} {line : Line}
    (shown : blocks.Shown text) (stands : line.StandsIn text) :
    (blocks.next line).1.Shown text ∧
      ∀ span, (blocks.next line).2 = some span → ShowsAt text span.start := by
  have steps := steps_next blocks line
  generalize blocks.next line = result at steps ⊢
  cases steps with
  | @hashes cursor span containers within marked =>
      refine ⟨shown_of_ne_paragraph (by simp), ?_⟩
      rintro _ ⟨⟩
      obtain ⟨level, rest, hashes, rfl⟩ := hashHeading?_eq_some marked
      have shorter := Marker.hashes?_length hashes
      apply stands.showsAt within
      rw [Cursor.isBlank, List.isEmpty_eq_false_iff, ← List.length_pos_iff]
      omega
  | underline containers isOpen marked =>
      refine ⟨shown_of_ne_paragraph (by simp), ?_⟩
      rintro _ ⟨⟩
      obtain ⟨first, isFirst, last, -, rfl⟩ := underlined?_eq_some marked
      exact shown _ isOpen first isFirst
  | leaf containers notParagraph =>
      exact ⟨shown_of_ne_paragraph notParagraph, by simp⟩
  | text within visible known =>
      refine ⟨?_, by simp⟩
      intro lines isParagraph held member
      rcases known lines isParagraph held member with
        rfl | ⟨before, isOpen, inside⟩
      · exact stands.showsAt within visible
      · exact shown before isOpen held inside

/-- Every heading starts with a visible character. -/
theorem showsAt_of_mem_sites {text : Text} {blocks : OpenBlocks}
    {beyond : Option Line} {lines : List Line}
    (stands : ∀ line ∈ lines, line.StandsIn text)
    (shown : blocks.Shown text) :
    ∀ site ∈ sites blocks beyond lines, ShowsAt text site.span.start := by
  induction lines generalizing blocks with
  | nil =>
      simp [sites]
  | cons line rest inductionHypothesis =>
      obtain ⟨lineStands, restStand⟩ := List.forall_mem_cons.mp stands
      obtain ⟨shownNext, starts⟩ :=
        OpenBlocks.next_shown shown lineStands
      intro site member
      rw [sites, List.mem_append, Option.mem_toList] at member
      rcases member with found | member
      · obtain ⟨span, completes, rfl⟩ := mem_siteOn?.mp found
        rw [takeMarks_start]
        exact starts span completes
      · exact inductionHypothesis restStand shownNext site member

theorem showsAt_of_mem_textSites {text : Text} {site : Site}
    (member : site ∈ textSites text) : ShowsAt text site.span.start :=
  showsAt_of_mem_sites (standsIn_blockLines text)
    (OpenBlocks.shown_initial text) site member

/-! ## Headings and their bodies -/

/-- The text of a heading stands between its start and its end. -/
structure HeadingSpan.IsOrdered (span : HeadingSpan) : Prop where
  start_le : span.start ≤ span.textStart
  textEnd_le : span.textEnd ≤ span.finish
  start_lt : span.start < span.finish

theorem hashHeading?_start_le {line : Line} {cursor : Cursor}
    {span : HeadingSpan} (marked : hashHeading? line cursor = some span) :
    span.start ≤ span.textStart := by
  obtain ⟨level, rest, hashes, rfl⟩ := hashHeading?_eq_some marked
  have shorter := Marker.hashes?_length hashes
  have fits := (List.dropWhile_suffix isIndent (l := rest)).length_le
  simp only [visibleOffset]
  omega

theorem underlined?_start_le {line : Line} {lines : List ParagraphLine}
    {level : Nat} {span : HeadingSpan}
    (marked : underlined? level lines line = some span) :
    span.start ≤ span.textStart := by
  obtain ⟨first, -, last, -, rfl⟩ := underlined?_eq_some marked
  exact Nat.le_refl _

/-- The marks that a heading takes stand on the line below it. -/
theorem finish_le_takeMarks_finish {line : Line} {stop : Nat}
    {rest : List Line} (below : Successive line.finish stop rest)
    (containers : List Container) {span : HeadingSpan}
    (ends : span.finish = line.finish) :
    line.finish ≤ (takeMarks containers rest.head? span).finish := by
  rcases takeMarks_finish containers rest.head? span with
    same | ⟨next, isNext, -, same⟩
  · omega
  · cases rest with
    | nil => cases isNext
    | cons head tail =>
        obtain rfl : head = next := Option.some.inj isNext
        have after := below.1
        omega

/-- In lines that stand one after another the text of a heading stands between
its start and its end. -/
theorem isOrdered_of_mem_headingSpans {blocks : OpenBlocks} {start stop : Nat}
    {lines : List Line} (successive : Successive start stop lines)
    (placed : blocks.Within 0 start) :
    ∀ span ∈ headingSpans blocks lines, span.IsOrdered := by
  induction lines generalizing blocks start with
  | nil => simp [headingSpans]
  | cons line rest inductionHypothesis =>
      obtain ⟨after, proper, below⟩ := successive
      obtain ⟨placedNext, ends⟩ := OpenBlocks.next_within
        (placed.mono after) (Nat.zero_le _) proper
      have later := inductionHypothesis below
        (placedNext.mono (Nat.le_add_right _ _))
      rw [headingSpans]
      dsimp only
      cases completes : (blocks.next line).2 with
      | none => exact later
      | some span =>
          obtain ⟨⟨-, start_lt, textEnd_le, finish_eq⟩, -⟩ :=
            ends span completes
          have contentEnd_le : line.contentEnd ≤ line.finish :=
            Nat.le_add_right _ _
          have finish_ge := finish_le_takeMarks_finish below
            (blocks.next line).1.containers finish_eq
          refine List.forall_mem_cons.mpr ⟨⟨?_, ?_, ?_⟩, later⟩
          · rw [takeMarks_start, takeMarks_textStart]
            rcases OpenBlocks.next_completes completes with
              ⟨cursor, -, marked⟩ | ⟨lines, level, -, marked⟩
            · exact hashHeading?_start_le marked
            · exact underlined?_start_le marked
          · rw [takeMarks_textEnd]
            exact (textEnd_le.trans contentEnd_le).trans finish_ge
          · rw [takeMarks_start]
            exact start_lt.trans_le finish_ge

/-- A heading ends behind the start of the lines on which it is found. -/
theorem lt_finish_of_mem_headingSpans {blocks : OpenBlocks} {start stop : Nat}
    {lines : List Line} (successive : Successive start stop lines)
    (placed : blocks.Within 0 start) :
    ∀ span ∈ headingSpans blocks lines, start < span.finish := by
  induction lines generalizing blocks start with
  | nil => simp [headingSpans]
  | cons line rest inductionHypothesis =>
      obtain ⟨after, proper, below⟩ := successive
      obtain ⟨placedNext, ends⟩ := OpenBlocks.next_within
        (placed.mono after) (Nat.zero_le _) proper
      have start_lt : start < line.finish := after.trans_lt proper
      have later : ∀ span ∈ headingSpans (blocks.next line).1 rest,
          start < span.finish := fun span member =>
        start_lt.trans <| inductionHypothesis below
          (placedNext.mono (Nat.le_add_right _ _)) span member
      rw [headingSpans]
      dsimp only
      cases completes : (blocks.next line).2 with
      | none => exact later
      | some span =>
          obtain ⟨⟨-, -, -, finish_eq⟩, -⟩ := ends span completes
          exact List.forall_mem_cons.mpr
            ⟨start_lt.trans_le (finish_le_takeMarks_finish below _ finish_eq),
              later⟩

/-- Headings end one after another, those included that take marks of the line
below them. -/
theorem pairwise_finish_le {blocks : OpenBlocks} {start stop : Nat}
    {lines : List Line} (successive : Successive start stop lines)
    (placed : blocks.Within 0 start) :
    (headingSpans blocks lines).Pairwise fun span later =>
      span.finish ≤ later.finish := by
  induction lines generalizing blocks start with
  | nil => exact .nil
  | cons line rest inductionHypothesis =>
      obtain ⟨after, proper, below⟩ := successive
      obtain ⟨placedNext, ends⟩ := OpenBlocks.next_within
        (placed.mono after) (Nat.zero_le _) proper
      have placedRest : (blocks.next line).1.Within 0 line.finish :=
        placedNext.mono (Nat.le_add_right _ _)
      have pairwise := inductionHypothesis below placedRest
      rw [headingSpans]
      dsimp only
      cases completes : (blocks.next line).2 with
      | none => exact pairwise
      | some span =>
          obtain ⟨⟨-, -, -, finish_eq⟩, -⟩ := ends span completes
          refine .cons (fun later member => ?_) pairwise
          rcases takeMarks_finish (blocks.next line).1.containers rest.head?
            span with same | ⟨next, isNext, -, same⟩
          · have behind :=
              lt_finish_of_mem_headingSpans below placedRest later member
            omega
          -- The later heading ends behind the start of the line with marks.
          · cases rest with
            | nil => cases isNext
            | cons head tail =>
                obtain rfl : head = next := Option.some.inj isNext
                obtain ⟨onward, restProper, restBelow⟩ := below
                have fromHead : Successive head.start stop (head :: tail) :=
                  ⟨Nat.le_refl _, restProper, restBelow⟩
                have behind := lt_finish_of_mem_headingSpans fromHead
                  (placedRest.mono onward) later member
                omega

/-- A heading starts above its body. -/
theorem start_lt_bodyStart {text : Text} {heading : Heading}
    (member : heading ∈ headings text) : heading.start < heading.bodyStart := by
  obtain ⟨span, isSpan, rfl⟩ := List.mem_map.mp member
  have successive := successive_blockLines text
  have within := OpenBlocks.within_initial 0 0
  have start_lt :=
    (isOrdered_of_mem_headingSpans successive within span isSpan).start_lt
  have fits := fitsIn_of_mem_headingSpans successive within span isSpan
  have finish_le := le_nextLineStart text span.finish
  rw [Nat.min_eq_left fits.finish_le] at finish_le
  exact (lineStart_le text span.start).trans_lt (start_lt.trans_le finish_le)

/-- A heading has at least its own line above its body. -/
theorem bodyStart_pos {text : Text} {heading : Heading}
    (member : heading ∈ headings text) : 0 < heading.bodyStart :=
  (Nat.zero_le _).trans_lt (start_lt_bodyStart member)

/-! ## Headings one after another -/

/-- A visible character stands between two offsets. -/
def ShowsBetween (text : Text) (start stop : Nat) : Prop :=
  ∃ offset, start ≤ offset ∧ offset < stop ∧ ShowsAt text offset

/-- A carriage return without a line feed stands on the first line of a
text. -/
def HasLoneReturn (text : Text) : Prop :=
  ∃ before after : Text, text = before ++ '\r' :: after ∧
    '\n' ∉ before ∧ after.head? ≠ some '\n'

/-- How a heading stands above a later one: visible text stands between the
starts of their lines, or both start on one line, on which a carriage return
ends the first one. -/
def Heading.Precedes (text : Text) (heading later : Heading) : Prop :=
  ShowsBetween text heading.start later.start ∨
    heading.start = later.start ∧ HasLoneReturn (text.drop heading.start)

theorem Heading.Precedes.start_le {text : Text} {heading later : Heading}
    (precedes : heading.Precedes text later) :
    heading.start ≤ later.start := by
  rcases precedes with ⟨offset, start_le, lt_start, -⟩ | ⟨same, -⟩
  · exact start_le.trans (Nat.le_of_lt lt_start)
  · exact Nat.le_of_eq same

/-- What stands up to an offset holds no line feed behind the start of the
offset's line. -/
theorem feed_not_mem_drop {text first : Text} {offset : Nat}
    (isPrefix : first <+: text) (short : first.length ≤ offset)
    (inside : offset ≤ text.length) :
    '\n' ∉ first.drop (lineStart text offset) := by
  intro member
  have before : first <+: text.take offset :=
    List.prefix_take_iff.mpr ⟨isPrefix, short⟩
  exact feed_not_mem_line text inside ((before.drop _).subset member)

/-- When a line ends before an offset and starts on the line of the offset as
line feeds count, a carriage return ends it. -/
theorem hasLoneReturn_of_finish_le {text : Text} {line : Line}
    {offset : Nat} (stands : line.StandsIn text)
    (start_lt : lineStart text offset < line.finish)
    (finish_le : line.finish ≤ offset) (inside : offset < text.length) :
    HasLoneReturn (text.drop (lineStart text offset)) := by
  obtain ⟨-, above, below, parts, place, ends⟩ := stands
  have finish_eq :
      line.finish =
        (above ++ line.content).length + line.ending.length := by
    rw [Line.finish, Line.contentEnd, List.length_append, place]
  have whole : text = above ++ line.content ++ line.ending ++ below := by
    simp only [parts, List.append_assoc]
  have offset_le := Nat.le_of_lt inside
  rcases ends with isEnding | ⟨isReturn, notFed⟩ | ⟨noEnding, rfl⟩
  -- A line feed would start another line behind it.
  · have last :
        (above ++ line.content ++ line.ending).getLast? = some '\n' := by
      rcases isEnding with isFeed | isBoth
      · simp [isFeed]
      · simp [isBoth]
    have short :
        (above ++ line.content ++ line.ending).length = line.finish := by
      rw [finish_eq, List.length_append]
    refine absurd (List.mem_of_getLast? ?_)
      (feed_not_mem_drop ⟨below, whole.symm⟩ (short.trans_le finish_le)
        offset_le)
    rw [List.getLast?_drop, short, if_neg (Nat.not_le_of_lt start_lt), last]
  · rw [isReturn, List.length_singleton] at finish_eq
    refine ⟨(above ++ line.content).drop (lineStart text offset), below,
      (congrArg (List.drop _) whole).trans ?_,
      feed_not_mem_drop ⟨line.ending ++ below, ?_⟩ ?_ offset_le, notFed⟩
    · rw [isReturn, List.append_assoc, List.singleton_append,
        List.drop_append_of_le_length (by omega)]
    · rw [← List.append_assoc]
      exact whole.symm
    · omega
  -- No offset stands behind the last line.
  · rw [whole, noEnding, List.append_nil, List.append_nil] at inside
    rw [noEnding, List.length_nil] at finish_eq
    omega

theorem heading_precedes {text : Text} {site later : Site}
    (stands : site.line.StandsIn text)
    (start_lt : site.span.start < site.line.finish)
    (finish_le : site.line.finish ≤ later.span.start)
    (shows : ShowsAt text site.span.start)
    (laterShows : ShowsAt text later.span.start) :
    (site.heading text).Precedes text (later.heading text) := by
  have inside := laterShows.lt_length
  have start_le : site.span.start ≤ later.span.start :=
    Nat.le_of_lt (start_lt.trans_le finish_le)
  rcases lineStart_eq_or_lt text start_le (Nat.le_of_lt inside) with
    same | behind
  · right
    refine ⟨same.symm, ?_⟩
    change HasLoneReturn (text.drop (lineStart text site.span.start))
    have onLine := lineStart_le text site.span.start
    rw [← same] at onLine ⊢
    exact hasLoneReturn_of_finish_le stands (onLine.trans_lt start_lt)
      finish_le inside
  · exact .inl ⟨site.span.start, lineStart_le text _, behind, shows⟩

/-- The headings of a text stand one after another. -/
theorem headings_pairwise (text : Text) :
    (headings text).Pairwise (Heading.Precedes text) := by
  have successive := successive_blockLines text
  have within := OpenBlocks.within_initial 0 0
  rw [headings_eq, List.pairwise_map]
  refine (sites_pairwise successive within (Nat.le_refl 0)).imp_of_mem ?_
  intro site later isSite isLater finish_le
  have bounds := sites_bounds successive within (Nat.le_refl 0) isSite
  have onLine := mem_lines_of_mem_sites isSite
  exact heading_precedes (standsIn_blockLines text _ onLine) bounds.2.1
    finish_le (showsAt_of_mem_textSites isSite)
    (showsAt_of_mem_textSites isLater)

/-- Below the start of a heading stands visible text. -/
theorem showsBetween_of_mem_headings {text : Text} {heading : Heading}
    (member : heading ∈ headings text) :
    ShowsBetween text heading.start text.length := by
  rw [headings_eq] at member
  obtain ⟨site, isSite, rfl⟩ := List.mem_map.mp member
  have shows := showsAt_of_mem_textSites isSite
  exact ⟨site.span.start, lineStart_le text _, shows.lt_length, shows⟩

end ComponentDocs.Markdown
