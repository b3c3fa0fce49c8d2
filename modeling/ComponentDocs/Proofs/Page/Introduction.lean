import ComponentDocs.Proofs.Page.Block
import ComponentDocs.Proofs.Page.Part

/-!
What the introduction of a body is: the trimmed piece between the headings of
the first level at the top of the body and the first other heading. No heading
starts in it.
-/

namespace ComponentDocs.Page

open ComponentDocs.Markdown

/-! ## Headings around the introduction -/

/-- The headings of the first level above every other heading of a body. -/
def titles (body : Text) : List HeadingSpan :=
  (headingSpans .initial (blockLines body)).takeWhile fun span =>
    span.level == 1

/-- The headings of a body from the first one on that is not of the first
level. -/
def subheadings (body : Text) : List HeadingSpan :=
  (headingSpans .initial (blockLines body)).dropWhile fun span =>
    span.level == 1

theorem titles_append_subheadings (body : Text) :
    titles body ++ subheadings body =
      headingSpans .initial (blockLines body) :=
  List.takeWhile_append_dropWhile

/-- Where the introduction starts at the earliest: below the last title, or
where the body starts. -/
def introductionStart (body : Text) : Nat :=
  match (titles body).getLast? with
  | some title => nextLineStart body title.finish
  | none => 0

/-- Where the introduction stops at the latest: at the line on which the first
subheading starts, or where the body ends. -/
def introductionStop (body : Text) : Nat :=
  match (subheadings body).head? with
  | some subheading => lineStart body subheading.start
  | none => body.length

/-- The introduction is what stands between the two places, trimmed. -/
theorem introduction?_eq (body : Text) :
    introduction? body =
      let introduction := Text.trim <|
        slice body (introductionStart body) (introductionStop body)
      if introduction.isEmpty then none else some introduction := by
  have first :
      (headings body).find? (fun heading => heading.level != 1) =
        (subheadings body).head?.map (HeadingSpan.heading body) := by
    rw [headings, List.find?_map, List.find?_eq_head?_dropWhile_not]
    simp only [Function.comp_def, bne, Bool.not_not]
    rfl
  have last :
      ((headings body).takeWhile fun heading => heading.level == 1).getLast? =
        (titles body).getLast?.map (HeadingSpan.heading body) := by
    rw [headings, List.takeWhile_map, List.getLast?_map]
    rfl
  rw [introduction?, introductionStart, introductionStop, first, last]
  cases (titles body).getLast? <;> cases (subheadings body).head? <;> rfl

section Places

variable {body : Text}

theorem mem_spans_of_mem_titles {title : HeadingSpan}
    (member : title ∈ titles body) :
    title ∈ headingSpans .initial (blockLines body) :=
  (List.takeWhile_prefix _).subset member

theorem finish_le_bodyStart {title : HeadingSpan}
    (member : title ∈ titles body) :
    title.finish ≤ nextLineStart body title.finish := by
  have fits := fitsIn_of_mem_headingSpans (successive_blockLines body)
    (OpenBlocks.within_initial 0 0) title (mem_spans_of_mem_titles member)
  have finish_le := le_nextLineStart body title.finish
  rwa [Nat.min_eq_left fits.finish_le] at finish_le

/-- Every title ends above the introduction, and so does the line on which it
ends. -/
theorem bodyStart_le_introductionStart {title : HeadingSpan}
    (member : title ∈ titles body) :
    nextLineStart body title.finish ≤ introductionStart body := by
  have successive := successive_blockLines body
  have within := OpenBlocks.within_initial 0 0
  obtain ⟨above, last, parts⟩ :=
    (List.eq_nil_or_concat' (titles body)).resolve_left
      (List.ne_nil_of_mem member)
  have isLast : last ∈ titles body := by
    simp [parts]
  have finish_le : title.finish ≤ last.finish := by
    have pairwise :=
      (pairwise_finish_le successive within).sublist
        (List.takeWhile_sublist fun span => span.level == 1)
    change (titles body).Pairwise _ at pairwise
    rw [parts] at pairwise member
    rcases List.mem_append.mp member with isAbove | same
    · exact (List.pairwise_append.mp pairwise).2.2 title isAbove last
        List.mem_cons_self
    · rw [List.mem_singleton.mp same]
  have fits := fitsIn_of_mem_headingSpans successive within last
    (mem_spans_of_mem_titles isLast)
  rw [introductionStart, parts, List.getLast?_concat]
  exact nextLineStart_mono body finish_le fits.finish_le

theorem introductionStop_le_lineStart {subheading : HeadingSpan}
    (member : subheading ∈ subheadings body) :
    introductionStop body ≤ lineStart body subheading.start := by
  have pairwise := headings_pairwise body
  rw [headings, ← titles_append_subheadings, List.map_append,
    List.pairwise_append] at pairwise
  rw [introductionStop]
  cases parts : subheadings body with
  | nil =>
      rw [parts] at member
      cases member
  | cons first rest =>
      rw [parts] at member pairwise
      rcases List.mem_cons.mp member with rfl | isLater
      · exact Nat.le_refl _
      · exact ((List.pairwise_cons.mp pairwise.2.1).1 _
          (List.mem_map_of_mem isLater)).start_le

theorem introductionStop_le_length : introductionStop body ≤ body.length := by
  rw [introductionStop]
  split
  · rename_i first isFirst
    have member : first ∈ headingSpans .initial (blockLines body) :=
      (List.dropWhile_suffix _).subset (List.mem_of_head? isFirst)
    have fits := fitsIn_of_mem_headingSpans (successive_blockLines body)
      (OpenBlocks.within_initial 0 0) first member
    exact (lineStart_le body first.start).trans fits.start_le
  · exact Nat.le_refl _

end Places

/-! ## Trimmed pieces -/

/-- Trimming a piece of a text gives a piece of the text again. -/
theorem exists_trim_slice {text : Text} {start stop : Nat}
    (inside : stop ≤ text.length)
    (visible : Text.trim (slice text start stop) ≠ []) :
    ∃ offset,
      start ≤ offset ∧
        offset + (Text.trim (slice text start stop)).length ≤ stop ∧
        slice text offset
            (offset + (Text.trim (slice text start stop)).length) =
          Text.trim (slice text start stop) ∧
        (∀ character ∈ slice text start offset,
          Text.isBlank character = true) ∧
        ∀ character ∈
            slice text
              (offset + (Text.trim (slice text start stop)).length) stop,
          Text.isBlank character = true := by
  have start_lt : start < stop := by
    by_contra reversed
    rw [slice_eq_nil text (Nat.le_of_not_lt reversed)] at visible
    exact visible rfl
  have whole :=
    (take_append_slice_append_drop text (Nat.le_of_lt start_lt)).symm
  have above_length : (text.take start).length = start := by
    rw [List.length_take]
    omega
  have slice_length : (slice text start stop).length = stop - start := by
    rw [slice, List.length_drop, List.length_take, Nat.min_eq_left inside]
  obtain ⟨lead, tail, parts, blankLead, blankTail⟩ :=
    Text.exists_trim (slice text start stop)
  generalize Text.trim (slice text start stop) = trimmed at visible parts ⊢
  rw [parts] at whole slice_length
  simp only [List.length_append] at slice_length
  have aroundLead :
      text = text.take start ++ lead ++
        (trimmed ++ tail ++ text.drop stop) := by
    simpa using whole
  have aroundTrimmed :
      text = text.take start ++ lead ++ trimmed ++
        (tail ++ text.drop stop) := by
    simpa using whole
  have aroundTail :
      text = text.take start ++ lead ++ trimmed ++ tail ++
        text.drop stop := by
    simpa using whole
  have isLead : slice text start (start + lead.length) = lead :=
    slice_eq aroundLead above_length.symm (by omega)
  have isTrimmed :
      slice text (start + lead.length)
          (start + lead.length + trimmed.length) = trimmed := by
    apply slice_eq aroundTrimmed <;> rw [List.length_append, above_length]
  have isTail :
      slice text (start + lead.length + trimmed.length) stop = tail := by
    apply slice_eq aroundTail <;>
      rw [List.length_append, List.length_append, above_length]
    omega
  refine ⟨start + lead.length, Nat.le_add_right _ _, by omega, isTrimmed, ?_,
    ?_⟩
  · rwa [isLead]
  · rwa [isTail]

/-! ## The introduction -/

/-- What the introduction of a body is that starts at `offset`: a visible,
trimmed piece of the body below all titles and above all subheadings, in which
no heading starts. Up to the headings around it only blanks are left away. -/
structure IsIntroduction (body : Text) (offset : Nat) (introduction : Text) :
    Prop where
  nonempty : introduction ≠ []
  trimmed : Text.trim introduction = introduction
  piece : slice body offset (offset + introduction.length) = introduction
  titles_above : ∀ title ∈ titles body,
    title.finish ≤ offset ∧ nextLineStart body title.finish ≤ offset
  subheadings_below : ∀ subheading ∈ subheadings body,
    offset + introduction.length ≤ lineStart body subheading.start
  alone : ∀ span ∈ headingSpans .initial (blockLines body),
    span.start < offset ∨ offset + introduction.length ≤ span.start
  blank_above : ∀ character ∈ slice body (introductionStart body) offset,
    Text.isBlank character = true
  blank_below : ∀ character ∈
      slice body (offset + introduction.length) (introductionStop body),
    Text.isBlank character = true

/-- A body has no introduction where nothing visible stands between its titles
and its first subheading. Any other introduction is a piece of the body in
which no heading starts. -/
theorem introduction?_isIntroduction (body : Text) :
    (introduction? body = none ↔
        ∀ character ∈
            slice body (introductionStart body) (introductionStop body),
          Text.isBlank character = true) ∧
      ∀ introduction, introduction? body = some introduction →
        ∃ offset, IsIntroduction body offset introduction := by
  rw [introduction?_eq, ← Text.trim_eq_nil_iff]
  dsimp only
  constructor
  · simp
  · intro introduction found
    rw [Option.ite_none_left_eq_some, List.isEmpty_iff, Option.some.injEq]
      at found
    obtain ⟨visible, rfl⟩ := found
    obtain ⟨offset, start_le, stop_ge, piece, blankAbove, blankBelow⟩ :=
      exists_trim_slice introductionStop_le_length visible
    have above : ∀ title ∈ titles body,
        title.finish ≤ offset ∧ nextLineStart body title.finish ≤ offset := by
      intro title member
      have bodyStart_le := bodyStart_le_introductionStart member
      have finish_le := finish_le_bodyStart member
      omega
    have below : ∀ subheading ∈ subheadings body,
        offset + _ ≤ lineStart body subheading.start := fun _ member =>
      stop_ge.trans (introductionStop_le_lineStart member)
    refine ⟨offset, visible, Text.trim_trim _, piece, above, below, ?_,
      blankAbove, blankBelow⟩
    intro span member
    rw [← titles_append_subheadings, List.mem_append] at member
    rcases member with isTitle | isSubheading
    · left
      have ordered := isOrdered_of_mem_headingSpans
        (successive_blockLines body) (OpenBlocks.within_initial 0 0) span
        (mem_spans_of_mem_titles isTitle)
      exact ordered.start_lt.trans_le (above span isTitle).1
    · right
      exact (below span isSubheading).trans (lineStart_le body span.start)

/-- A title in a quote takes the line below it that starts with its mark. -/
example :
    introduction? "# Box\n> # Panel\n> held\n\n Text.\n\n## API\n".toList =
      some "Text.".toList := by
  decide +kernel

end ComponentDocs.Page
