import ComponentDocs.Proofs.Markdown.Order
import ComponentDocs.Proofs.Page.OpenSection

/-!
What the section of a heading is: one piece of the page, from below the heading
up to the next heading of the same or a higher level, which holds no such
heading and all deeper ones.
-/

namespace ComponentDocs.Page

open ComponentDocs.Markdown

/-! ## Ends of sections -/

/-- A section ends with its page, or where the first heading starts that is not
deeper. -/
theorem sectionEnd_cases (level stop : Nat) (following : List Heading) :
    ((∀ later ∈ following, level < later.level) ∧
        sectionEnd level stop following = stop) ∨
      ∃ closing rest,
        following =
            following.takeWhile (fun later => level < later.level) ++
              closing :: rest ∧
          closing.level ≤ level ∧
          sectionEnd level stop following = closing.start := by
  induction following with
  | nil =>
      exact .inl ⟨by simp, rfl⟩
  | cons heading rest inductionHypothesis =>
      by_cases closes : heading.level ≤ level
      · right
        refine ⟨heading, rest, ?_, closes, ?_⟩
        · rw [List.takeWhile_cons_of_neg (by simpa using closes)]
          rfl
        · rw [sectionEnd, List.find?_cons_of_pos (by simpa using closes)]
      · have passed :
            sectionEnd level stop (heading :: rest) =
              sectionEnd level stop rest := by
          rw [sectionEnd, List.find?_cons_of_neg (by simpa using closes),
            sectionEnd]
        rw [passed, List.takeWhile_cons_of_pos (by simpa using closes),
          List.forall_mem_cons]
        rcases inductionHypothesis with
          ⟨deeper, ends⟩ | ⟨closing, others, parts, closes, ends⟩
        · exact .inl ⟨⟨Nat.lt_of_not_le closes, deeper⟩, ends⟩
        · refine .inr ⟨closing, others, ?_, closes, ends⟩
          rw [List.cons_append, ← parts]

section Heading

variable {text : Text} {before following : List Heading} {heading : Heading}
  (parts : headings text = before ++ heading :: following)

include parts

theorem pairwise_following : following.Pairwise (Heading.Precedes text) := by
  have pairwise := headings_pairwise text
  rw [parts] at pairwise
  exact (List.pairwise_cons.mp (List.pairwise_append.mp pairwise).2.1).2

/-- A deeper heading before the end of a section shows before that end, unless
it stands on the line of the heading that ends the section. -/
theorem showsBetween_or_hasLoneReturn {deeper : Heading}
    (member : deeper ∈
      following.takeWhile fun later => heading.level < later.level) :
    ShowsBetween text deeper.start
        (sectionEnd heading.level text.length following) ∨
      deeper.start = sectionEnd heading.level text.length following ∧
        HasLoneReturn
          (text.drop (sectionEnd heading.level text.length following)) := by
  rcases sectionEnd_cases heading.level text.length following with
    ⟨-, ends⟩ | ⟨closing, rest, shape, -, ends⟩
  · have isHeading : deeper ∈ headings text := by
      rw [parts]
      simp [(List.takeWhile_prefix _).subset member]
    rw [ends]
    exact .inl (showsBetween_of_mem_headings isHeading)
  · have pairwise := pairwise_following parts
    rw [shape] at pairwise
    have precedes := (List.pairwise_append.mp pairwise).2.2 deeper member
      closing List.mem_cons_self
    rw [ends]
    rcases precedes with shows | ⟨same, lone⟩
    · exact .inl shows
    · exact .inr ⟨same, same ▸ lone⟩

/-- No heading of the same or a higher level stands between a heading and the
end of its section. -/
theorem sectionEnd_le_start {other : Heading} (member : other ∈ headings text)
    (level_le : other.level ≤ heading.level)
    (below : heading.bodyStart ≤ other.start) :
    sectionEnd heading.level text.length following ≤ other.start := by
  have isHeading : heading ∈ headings text := by
    simp [parts]
  have start_lt := start_lt_bodyStart isHeading
  have pairwise := headings_pairwise text
  rw [parts] at pairwise
  obtain ⟨-, -, across⟩ := List.pairwise_append.mp pairwise
  rw [parts, List.mem_append, List.mem_cons] at member
  rcases member with isBefore | rfl | isFollowing
  · have start_le :=
      (across other isBefore heading List.mem_cons_self).start_le
    omega
  · omega
  · rcases sectionEnd_cases heading.level text.length following with
      ⟨deeper, -⟩ | ⟨closing, rest, shape, -, ends⟩
    · exact absurd level_le (Nat.not_le_of_lt (deeper other isFollowing))
    · have pairwiseFollowing := pairwise_following parts
      rw [shape] at isFollowing pairwiseFollowing
      rw [ends]
      rcases List.mem_append.mp isFollowing with isInside | isBeyond
      · have deeper := List.mem_takeWhile_imp isInside
        exact absurd level_le (Nat.not_le_of_lt (by simpa using deeper))
      · rcases List.mem_cons.mp isBeyond with rfl | isLater
        · exact Nat.le_refl _
        · obtain ⟨-, beyond, -⟩ := List.pairwise_append.mp pairwiseFollowing
          exact ((List.pairwise_cons.mp beyond).1 other isLater).start_le

end Heading

/-! ## Pieces -/

theorem take_append_slice_append_drop (text : Text) {start stop : Nat}
    (le : start ≤ stop) :
    text.take start ++ slice text start stop ++ text.drop stop = text := by
  have taken : text.take start = (text.take stop).take start := by
    rw [List.take_take, Nat.min_eq_left le]
  rw [slice, taken, List.take_append_drop, List.take_append_drop]

theorem slice_eq_nil (text : Text) {start stop : Nat} (reversed : stop ≤ start) :
    slice text start stop = [] := by
  apply List.drop_eq_nil_of_le
  exact (List.length_take_le _ _).trans reversed

/-- What shows in a piece stands before the line ends at its end. -/
theorem lt_length_trimLineEnds {text : Text} {start stop offset : Nat}
    (start_le : start ≤ offset) (lt_stop : offset < stop)
    (shows : ShowsAt text offset) :
    offset < start + (trimLineEnds (slice text start stop)).length := by
  obtain ⟨character, isCharacter, notFeed, notReturn⟩ := shows
  obtain ⟨ends, parts, areEnds, -⟩ :=
    exists_trimLineEnds (slice text start stop)
  have inSlice :
      (slice text start stop)[offset - start]? = some character := by
    rw [slice, List.getElem?_drop, Nat.add_sub_cancel' start_le,
      List.getElem?_take_of_lt lt_stop, isCharacter]
  by_contra late
  rw [parts, List.getElem?_append_right (by omega)] at inSlice
  rcases areEnds character (List.mem_of_getElem? inSlice) with
    isFeed | isReturn
  · exact notFeed isFeed
  · exact notReturn isReturn

/-! ## Sections -/

/-- What is cut out of a page for the section of a heading that ends at `stop`,
with the headings `inside` up to there: one piece of the page without line ends
at its end, in which no heading starts that could end the section, and every
deeper one that starts below the heading, unless it stands on the line behind
the section. -/
structure IsSection (text : Text) (heading : Heading) (inside : List Heading)
    (stop : Nat) (cut : Text) : Prop where
  piece : heading.bodyStart ≤ stop → ∃ above ends below : Text,
    text = above ++ (cut ++ ends) ++ below ∧
      above.length = heading.bodyStart ∧
      (above ++ (cut ++ ends)).length = stop ∧ AreEnds ends
  visible : EndsVisibly cut
  reversed : stop ≤ heading.bodyStart → cut = []
  alone : ∀ other ∈ headings text, other.level ≤ heading.level →
    heading.bodyStart ≤ other.start → stop ≤ other.start
  holds : ∀ deeper ∈ inside, heading.bodyStart ≤ deeper.start →
    deeper.start < heading.bodyStart + cut.length ∨
      deeper.start = stop ∧ HasLoneReturn (text.drop stop)

theorem isSection_trimLineEnds {text : Text} {before following : List Heading}
    {heading : Heading}
    (parts : headings text = before ++ heading :: following) :
    IsSection text heading
      (following.takeWhile fun later => heading.level < later.level)
      (sectionEnd heading.level text.length following)
      (trimLineEnds <|
        slice text heading.bodyStart
          (sectionEnd heading.level text.length following)) := by
  have inText (other : Heading) (member : other ∈ heading :: following) :
      other ∈ headings text := by
    rw [parts]
    exact List.mem_append_right _ member
  have stop_le :
      sectionEnd heading.level text.length following ≤ text.length :=
    sectionEnd_le _ fun later member =>
      (le_of_mem_headings (inText later (List.mem_cons_of_mem _ member))).1
  have alone := fun (other : Heading) (member : other ∈ headings text) =>
    sectionEnd_le_start parts member
  have shows := fun (deeper : Heading)
      (member : deeper ∈
        following.takeWhile fun later => heading.level < later.level) =>
    showsBetween_or_hasLoneReturn parts member
  generalize sectionEnd heading.level text.length following = stop
    at stop_le alone shows ⊢
  obtain ⟨ends, cut_eq, areEnds, visible⟩ :=
    exists_trimLineEnds (slice text heading.bodyStart stop)
  refine ⟨?_, visible, ?_, alone, ?_⟩
  · intro le
    refine ⟨text.take heading.bodyStart, ends, text.drop stop, ?_, ?_, ?_,
      areEnds⟩
    · rw [← cut_eq]
      exact (take_append_slice_append_drop text le).symm
    · rw [List.length_take, Nat.min_eq_left (le.trans stop_le)]
    · rw [← cut_eq, List.length_append, slice, List.length_drop,
        List.length_take, List.length_take]
      omega
  · intro reversed
    rw [slice_eq_nil text reversed]
    rfl
  · intro deeper member below
    rcases shows deeper member with
      ⟨offset, start_le, lt_stop, showsAt⟩ | beside
    · left
      exact start_le.trans_lt
        (lt_length_trimLineEnds (below.trans start_le) lt_stop showsAt)
    · exact .inr beside

theorem headingFrom?_eq_none_iff {name : Text} {items : List Heading} :
    headingFrom? name items = none ↔
      ∀ heading ∈ items, isNamed name heading = false := by
  induction items with
  | nil =>
      simp [headingFrom?]
  | cons heading rest inductionHypothesis =>
      rw [headingFrom?, List.forall_mem_cons, ← inductionHypothesis]
      cases isNamed name heading <;> simp

/-- A name has no section where no heading of the page has it, and else the
section of the first heading that does. -/
theorem block?_isSection (text name : Text) :
    (block? text name = none ↔
        ∀ heading ∈ headings text, isNamed name heading = false) ∧
      ∀ before heading following,
        headings text = before ++ heading :: following →
        (∀ earlier ∈ before, isNamed name earlier = false) →
        isNamed name heading = true →
          ∃ cut, block? text name = some cut ∧
            IsSection text heading
              (following.takeWhile fun later => heading.level < later.level)
              (sectionEnd heading.level text.length following) cut := by
  constructor
  · rw [← headingFrom?_eq_none_iff, block?]
    cases headingFrom? name (headings text) <;> simp
  · intro before heading following parts notBefore named
    have isFirst :
        headingFrom? name (headings text) = some (heading, following) := by
      rw [parts, headingFrom?_append,
        headingFrom?_eq_none_iff.mpr notBefore, headingFrom?, if_pos named]
      rfl
    refine ⟨_, ?_, isSection_trimLineEnds parts⟩
    rw [block?, isFirst]

/-- The section of a name in another case, with a section inside it. -/
theorem block?_guidePage :
    ∃ cut, block? guidePage " api ".toList = some cut ∧
      IsSection guidePage ⟨2, apiName, 0, 7⟩
        [⟨3, attributesName, 8, 23⟩, ⟨3, "Events".toList, 30, 41⟩] 48 cut :=
  (block?_isSection guidePage " api ".toList).2 []
    ⟨2, apiName, 0, 7⟩
    [⟨3, attributesName, 8, 23⟩, ⟨3, "Events".toList, 30, 41⟩,
      ⟨2, "FAQ".toList, 48, 55⟩]
    (by decide +kernel) (by simp) (by decide +kernel)

/-- A carriage return without a line feed ends the deeper heading, so that it
stands on the line of the heading behind the section. -/
def sharedLinePage : Text :=
  "# A\n## B\r# C\n".toList

/-- A deeper heading may start where its section ends, and not inside it. -/
theorem block?_sharedLinePage :
    ∃ heading deeper closing : Heading,
      headings sharedLinePage = [heading, deeper, closing] ∧
        isNamed "A".toList heading = true ∧
        heading.level < deeper.level ∧ closing.level ≤ heading.level ∧
        heading.bodyStart ≤ deeper.start ∧
        ∃ cut, block? sharedLinePage "A".toList = some cut ∧
          ¬ deeper.start < heading.bodyStart + cut.length := by
  refine ⟨⟨1, "A".toList, 0, 4⟩, ⟨2, "B".toList, 4, 13⟩,
    ⟨1, "C".toList, 4, 13⟩, ?_⟩
  refine ⟨?_, ?_, ?_, ?_, ?_, [], ?_, ?_⟩
  all_goals decide +kernel

end ComponentDocs.Page
