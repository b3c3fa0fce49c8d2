import ComponentDocs.Proofs.Markdown.Piece

/-!
The lines of a text after a heading in no container, and among them those up to
the start of a later heading.
-/

namespace ComponentDocs.Markdown

/-! ## The lines of a text -/

theorem afterMetadata?_suffix {mark : Char} {lines rest : List Line}
    (closes : afterMetadata? mark lines = some rest) : rest <:+ lines := by
  induction lines with
  | nil =>
      cases closes
  | cons line others inductionHypothesis =>
      rw [afterMetadata?] at closes
      split at closes
      · injection closes with same
        rw [← same]
        exact List.suffix_cons line others
      · exact (inductionHypothesis closes).trans (List.suffix_cons line others)

theorem withoutMetadata_suffix (lines : List Line) :
    withoutMetadata lines <:+ lines := by
  cases lines with
  | nil =>
      exact List.suffix_rfl
  | cons line rest =>
      rw [withoutMetadata]
      cases opens :
          (metadataMark? line).bind fun mark => afterMetadata? mark rest with
      | none => exact List.suffix_rfl
      | some others =>
          obtain ⟨mark, -, closes⟩ := Option.bind_eq_some_iff.mp opens
          exact (afterMetadata?_suffix closes).trans
            (List.suffix_cons line rest)

/-- The lines that count in a text are those of an end of it. -/
theorem blockLines_hasLines {text : Text} (fed : returnsFed text = true) :
    ∃ skipped rest : Text, text = skipped ++ rest ∧
      HasLines skipped.length rest (blockLines text) := by
  have ofCut (start : Nat) {rest : Text} (fedRest : returnsFed rest = true) :
      ∃ first second : Text, rest = first ++ second ∧
        HasLines (start + first.length) second
          (withoutMetadata (Line.cut start [] rest)) := by
    obtain ⟨before, parts⟩ := withoutMetadata_suffix (Line.cut start [] rest)
    have has := hasLines_cut start fedRest
    rw [← parts] at has
    exact has.of_suffix
  unfold blockLines
  split
  · rename_i rest
    have fedRest : returnsFed rest = true := by
      rwa [returnsFed] at fed <;> simp
    obtain ⟨first, second, parts, has⟩ := ofCut 1 fedRest
    refine ⟨'\ufeff' :: first, second, by rw [parts, List.cons_append], ?_⟩
    rwa [List.length_cons, Nat.add_comm]
  · obtain ⟨first, second, parts, has⟩ := ofCut 0 fed
    refine ⟨first, second, parts, ?_⟩
    rwa [Nat.zero_add] at has

/-! ## After a heading -/

theorem StartsLine.append {before text : Text} (starts : StartsLine before)
    (startsText : StartsLine text) : StartsLine (before ++ text) := by
  rcases startsText with rfl | feed
  · rwa [List.append_nil]
  · right
    rw [List.getLast?_append, feed, Option.some_or]

theorem StartsLine.of_append {before text : Text}
    (starts : StartsLine (before ++ text)) : StartsLine text := by
  by_cases empty : text = []
  · exact .inl empty
  · right
    rcases starts with none | feed
    · exact absurd (List.append_eq_nil_iff.mp none).2 empty
    · obtain ⟨front, last, rfl⟩ :=
        (List.eq_nil_or_concat' text).resolve_left empty
      rw [← List.append_assoc, List.getLast?_concat] at feed
      rw [List.getLast?_concat, feed]

theorem StartsLine.drop {before : Text} (starts : StartsLine before)
    (count : Nat) : StartsLine (before.drop count) := by
  rcases starts with rfl | feed
  · exact .inl List.drop_nil
  · rcases Nat.lt_or_ge count before.length with inside | outside
    · right
      rw [List.getLast?_drop, if_neg (Nat.not_le_of_lt inside), feed]
    · exact .inl (List.drop_eq_nil_of_le outside)

theorem StartsLine.getLast?_ne {before : Text} (starts : StartsLine before) :
    before.getLast? ≠ some '\r' := by
  rcases starts with rfl | feed
  · simp
  · simp [feed]

/-- Behind a line with an end a line starts. -/
theorem startsLine_of_isEnding (before : Text) {ending : Text}
    (isEnding : IsEnding ending) : StartsLine (before ++ ending) := by
  right
  rcases isEnding with rfl | rfl <;> simp

/-- A text may be split behind a line. A line starts there, or nothing is
left. -/
theorem exists_split_behind (before : Text) {text : Text}
    {lines others : List Line} {line : Line}
    (has : HasLines before.length text (lines ++ line :: others)) :
    ∃ above below : Text,
      text = above ++ below ∧ (before ++ above).length = line.finish ∧
        (StartsLine (before ++ above) ∨ below = []) ∧
        HasLines line.finish below others := by
  obtain ⟨above, below, parts, place, hasBelow, ending⟩ := has.split
  refine ⟨above ++ line.content ++ line.ending, below, ?_, ?_, ?_, hasBelow⟩
  · rw [parts]
    simp only [List.append_assoc]
  · simp only [Line.finish, Line.contentEnd, place, List.length_append]
    omega
  · rw [← List.append_assoc]
    exact ending.imp (startsLine_of_isEnding _) And.right

/-- Behind a heading in no container the rest of the text is read like a text
of its own. -/
theorem textSites_after {text : Text} {first later : List Site} {site : Site}
    (fed : returnsFed text = true)
    (shape : textSites text = first ++ site :: later)
    (flat : site.following.containers = []) :
    ∃ before below : Text,
      text = before ++ below ∧ (StartsLine before ∨ below = []) ∧
        (site.heading text).bodyStart = before.length ∧
        returnsFed below = true ∧
        later = sites .initial none (Line.cut before.length [] below) := by
  obtain ⟨skipped, body, parts, has⟩ := blockLines_hasLines fed
  have member : site ∈ sites .initial none (blockLines text) := by
    change site ∈ textSites text
    rw [shape]
    exact List.mem_append_right _ List.mem_cons_self
  obtain ⟨-, next, ⟨isNone, span, ends, sameSpan⟩, -⟩ :=
    sites_stand has.successive (OpenBlocks.within_initial 0 _)
      (Nat.zero_le _) site member
  rw [flat, takeMarks_nil] at sameSpan
  -- A heading leaves no leaf open, so that nothing at all is.
  have isInitial : site.following = .initial := by
    rw [OpenBlocks.initial, ← flat, ← isNone]
  obtain ⟨lines, others, lines_eq, -, -, later_eq⟩ := sites_split shape
  rw [lines_eq] at has
  obtain ⟨above, below, bodyParts, length_eq, starts, hasBelow⟩ :=
    exists_split_behind skipped has
  have whole : text = skipped ++ above ++ below := by
    rw [parts, bodyParts, List.append_assoc]
  have fedBelow : returnsFed below = true := by
    rcases starts with starts | rfl
    · rw [whole, returnsFed_append below starts.getLast?_ne,
        Bool.and_eq_true] at fed
      exact fed.2
    · rfl
  have finish_eq : site.span.finish = site.line.finish := by
    rw [sameSpan, ends.finish_eq]
  refine ⟨_, below, whole, starts, ?_, fedBelow, ?_⟩
  · change nextLineStart text site.span.finish = _
    rw [finish_eq, ← length_eq]
    rcases starts with starts | rfl
    · conv_lhs => rw [whole]
      exact nextLineStart_of_startsLine starts below
    · rw [List.append_nil] at whole
      conv_lhs => rw [whole]
      exact nextLineStart_length _
  · rw [later_eq, isInitial, length_eq, hasBelow.cut_eq]

/-! ## Up to a later heading -/

section Before

variable {before below : Text} {first later : List Site} {site : Site}

/-- A heading before another one ends before the line on which the other one
starts. -/
theorem finish_le_lineStart
    (fed : returnsFed below = true)
    (shape : sites .initial none (Line.cut before.length [] below) =
      first ++ site :: later) {earlier : Site} (member : earlier ∈ first) :
    earlier.line.finish ≤
      lineStart (before ++ below) site.span.start := by
  have has := hasLines_cut before.length fed
  obtain ⟨front, back, rfl⟩ := List.append_of_mem member
  rw [List.append_assoc, List.cons_append] at shape
  have ordered :
      earlier.line.finish ≤ site.span.start := by
    have pairwise :
        (sites .initial none (Line.cut before.length [] below)).Pairwise
          fun site later => site.line.finish ≤ later.span.start :=
      sites_pairwise has.successive
        (OpenBlocks.within_initial before.length _) (Nat.le_refl _)
    rw [shape] at pairwise
    exact (List.pairwise_cons.mp (List.pairwise_append.mp pairwise).2.1).1
      site (by simp)
  obtain ⟨lines, others, lines_eq, -, -, others_eq⟩ := sites_split shape
  rw [lines_eq] at has
  obtain ⟨above, under, parts, length_eq, starts, hasUnder⟩ :=
    exists_split_behind before has
  -- Another heading follows, so that the line is not the last one.
  have startsUnder : StartsLine (before ++ above) := by
    refine starts.resolve_right ?_
    rintro rfl
    rw [hasUnder.unique (.nil _)] at others_eq
    simp [sites] at others_eq
  rw [parts, ← List.append_assoc, ← length_eq]
  exact startsLine_le_lineStart startsUnder under (length_eq.symm ▸ ordered)

/-- A text may be split where the line of an offset starts. -/
theorem exists_split_lineStart (starts : StartsLine before) {offset : Nat}
    (offset_ge : before.length ≤ offset)
    (offset_le : offset ≤ before.length + below.length) :
    ∃ range rest : Text,
      below = range ++ rest ∧ StartsLine range ∧
        lineStart (before ++ below) offset =
          before.length + range.length := by
  have stop_le := lineStart_le (before ++ below) offset
  obtain ⟨width, stop_eq⟩ := Nat.exists_eq_add_of_le
    (startsLine_le_lineStart starts below offset_ge)
  have width_le : width ≤ below.length := by
    omega
  have inside : offset ≤ (before ++ below).length := by
    rwa [List.length_append]
  refine ⟨below.take width, below.drop width,
    (List.take_append_drop width below).symm, ?_, ?_⟩
  · have startsStop := startsLine_take_lineStart (before ++ below) inside
    rw [stop_eq, List.take_length_add_append] at startsStop
    exact startsStop.of_append
  · rw [stop_eq, List.length_take, Nat.min_eq_left width_le]

/-- Two splits of a list are one when a test tells the parts of each apart. -/
theorem eq_of_append_eq_append {α : Type} {test : α → Bool}
    {inside outside front back : List α} {next : α}
    (same : inside ++ outside = front ++ next :: back)
    (passInside : ∀ item ∈ inside, test item = true)
    (failOutside : ∀ item ∈ outside, test item = false)
    (passFront : ∀ item ∈ front, test item = true)
    (failNext : test next = false) : inside = front := by
  have taken := congrArg (List.takeWhile test) same
  have nothing : outside.takeWhile test = [] := by
    cases outside with
    | nil => rfl
    | cons head tail =>
        rw [List.takeWhile_cons_of_neg]
        simp [failOutside head List.mem_cons_self]
  rwa [List.takeWhile_append_of_pos passInside, nothing, List.append_nil,
    List.takeWhile_append_of_pos passFront,
    List.takeWhile_cons_of_neg (by simp [failNext]), List.append_nil]
    at taken

/-- The headings of a text before a given one are those on the lines before the
line on which it starts. -/
theorem sites_before (starts : StartsLine before)
    (fed : returnsFed below = true)
    (shape : sites .initial none (Line.cut before.length [] below) =
      first ++ site :: later) :
    ∃ (range rest : Text) (beyond : Option Line),
      below = range ++ rest ∧
        lineStart (before ++ below) site.span.start =
          before.length + range.length ∧
        returnsFed range = true ∧
        first = sites .initial beyond (Line.cut before.length [] range) ∧
        ∀ line, beyond = some line →
          before.length + range.length ≤ line.start := by
  have member :
      site ∈ sites .initial none (Line.cut before.length [] below) := by
    rw [shape]
    exact List.mem_append_right _ List.mem_cons_self
  obtain ⟨start_ge, start_lt, -, -, finish_le⟩ :=
    sites_bounds (hasLines_cut before.length fed).successive
      (OpenBlocks.within_initial before.length before.length)
      (Nat.le_refl _) member
  have stop_le := lineStart_le (before ++ below) site.span.start
  have finish_le_stop (earlier : Site) (isEarlier : earlier ∈ first) :=
    finish_le_lineStart fed shape isEarlier
  have start_le : site.span.start ≤ before.length + below.length := by
    omega
  obtain ⟨range, rest, rfl, rangeStarts, stop_eq⟩ :=
    exists_split_lineStart starts start_ge start_le
  rw [cut_append _ rangeStarts fed, sites_append, Option.or_none] at shape
  rw [returnsFed_append rest rangeStarts.getLast?_ne,
    Bool.and_eq_true] at fed
  have hasRange := hasLines_cut before.length fed.1
  have hasRest := hasLines_cut (before.length + range.length) fed.2
  refine ⟨range, rest, _, rfl, stop_eq, fed.1, ?_, fun line isFirst =>
    (hasRest.bounds line (List.mem_of_mem_head? isFirst)).1⟩
  -- The lines that end with the range tell its headings from the others.
  let endsInside (found : Site) : Bool :=
    found.line.finish ≤ before.length + range.length
  refine (eq_of_append_eq_append shape (fun found isFound => ?_)
    (fun found isFound => ?_) (fun found isFound => ?_)
    (?_ : endsInside site = false)).symm
  · have bounds := hasRange.bounds found.line (mem_lines_of_mem_sites isFound)
    simpa [endsInside] using bounds.2.2
  · have bounds := hasRest.bounds found.line (mem_lines_of_mem_sites isFound)
    simp only [endsInside, decide_eq_false_iff_not]
    omega
  · simpa [endsInside, ← stop_eq] using finish_le_stop found isFound
  · simp only [endsInside, decide_eq_false_iff_not]
    omega

end Before

end ComponentDocs.Markdown
