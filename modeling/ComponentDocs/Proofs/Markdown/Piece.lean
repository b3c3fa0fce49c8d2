import ComponentDocs.Proofs.Markdown.Place
import ComponentDocs.Proofs.Markdown.Site

/-!
The headings of a piece of a text that is read as a text of its own. The piece
starts with a line and ends before line ends; it has the headings that the text
has there, unless the last of them needs the line end that the piece lacks.
-/

namespace ComponentDocs.Markdown

/-- The part of a text that ends no line. -/
def EndsVisibly (text : Text) : Prop :=
  ∀ last, text.getLast? = some last → last ≠ '\n' ∧ last ≠ '\r'

/-- A text of line ends. -/
def AreEnds (text : Text) : Prop :=
  ∀ character ∈ text, character = '\n' ∨ character = '\r'

/-- The end of the line after some lines does not count for their
headings. -/
theorem sites_ending (blocks : OpenBlocks) (last : Line) (ending : Text)
    (lines : List Line) :
    sites blocks (some { last with ending }) lines =
      sites blocks (some last) lines := by
  induction lines generalizing blocks with
  | nil =>
      rfl
  | cons line rest inductionHypothesis =>
      rw [sites, sites, inductionHypothesis]
      cases rest <;> rfl

theorem OpenBlocks.after_shift (amount : Nat) (blocks : OpenBlocks)
    (lines : List Line) :
    (blocks.shift amount).after (lines.map (Line.shift amount)) =
      (blocks.after lines).shift amount := by
  induction lines generalizing blocks with
  | nil =>
      rfl
  | cons line rest inductionHypothesis =>
      rw [List.map_cons, after, List.foldl_cons, next_shift]
      exact inductionHypothesis (blocks.next line).1

/-- A heading stands in the first `length` characters of its text. -/
structure HeadingSpan.FitsIn (length : Nat) (span : HeadingSpan) : Prop where
  start_le : span.start ≤ length
  textEnd_le : span.textEnd ≤ length
  finish_le : span.finish ≤ length

/-- Every heading on lines that stand up to an offset stands up to it. -/
theorem sites_inside {blocks : OpenBlocks} {start stop : Nat}
    {lines : List Line} (successive : Successive start stop lines)
    (placed : blocks.Within 0 start) :
    ∀ site ∈ sites blocks none lines, site.span.FitsIn stop := by
  intro site member
  obtain ⟨onLine, next, ⟨-, span, ends, sameSpan⟩, known⟩ :=
    sites_stand successive placed (Nat.zero_le _) site member
  obtain ⟨-, -, finish_le⟩ := successive.bounds site.line onLine
  have contentEnd_le : site.line.contentEnd ≤ site.line.finish :=
    Nat.le_add_right _ _
  obtain ⟨-, start_lt, textEnd_le, finish_eq⟩ := ends
  refine ⟨?_, ?_, ?_⟩
  · rw [sameSpan, takeMarks_start]
    omega
  · rw [sameSpan, takeMarks_textEnd]
    omega
  · rw [sameSpan]
    rcases takeMarks_finish site.following.containers next span with
      same | ⟨line, isNext, -, same⟩
    · omega
    · have inside :=
        successive.bounds line ((known line isNext).resolve_right (by simp))
      omega

section Piece

variable {before text ends after : Text}

theorem heading_shift_inside (after : Text) (starts : StartsLine before)
    {span : HeadingSpan} (inside : span.FitsIn text.length) :
    ((span.shift before.length).heading (before ++ text ++ after)).inside
          before.length text.length =
        span.heading text ∧
      ((span.shift before.length).heading
        (before ++ text ++ after)).IsInside before.length text.length := by
  obtain ⟨start_le, textEnd_le, finish_le⟩ := inside
  refine heading_inside after starts start_le textEnd_le finish_le
    rfl ?_ ?_ ?_ ?_
  · exact Nat.add_comm _ _
  · exact Nat.add_comm _ _
  · exact Nat.add_comm _ _
  · simp only [HeadingSpan.shift]
    omega

/-! ## The last line -/

/-- A heading that a piece up to the offset `stop` loses: it needs the end of
its line, and its section has no text before `stop`. -/
structure Site.IsLost (stop : Nat) (site : Site) : Prop where
  needsEnd : site.needsEnd = true
  line_finish_ge : stop ≤ site.line.finish
  span_finish_ge : stop ≤ site.span.finish

section LastLine

variable {last : Line} (ending : Text) {next : Option Line}
  (unended : last.ending = []) (place : last.finish = text.length)
  (behind : ∀ line, next = some line → line.content ≠ [] →
    before.length + text.length ≤ line.start)

include unended in
theorem unended_ending : ({ last with ending } : Line).unended = last := by
  rw [Line.unended, ← unended]

include unended place in
/-- With an end the last line of a piece ends behind the piece. -/
theorem le_finish_last :
    before.length + text.length ≤
      (({ last with ending } : Line).shift before.length).finish := by
  rw [Line.finish_shift]
  simp only [Line.finish, Line.contentEnd] at place ⊢
  rw [unended, List.length_nil] at place
  omega

include unended place behind in
theorem le_takeMarks_finish (containers : List Container)
    {span : HeadingSpan}
    (finish_eq : span.finish =
      (({ last with ending } : Line).shift before.length).finish) :
    before.length + text.length ≤
      (takeMarks containers next span).finish := by
  rcases takeMarks_finish containers next span with
    same | ⟨line, isNext, nonempty, same⟩
  · rw [same, finish_eq]
    exact le_finish_last ending unended place
  · rw [same]
    exact (behind line isNext nonempty).trans (Nat.le_succ _)

include unended place behind in
/-- What the last line of a piece is a heading for only with its end is
lost. -/
theorem isLost_of_last {blocks : OpenBlocks}
    (none_completes : (blocks.next last).2 = none) {site : Site}
    (found : siteOn? (blocks.shift before.length)
      (({ last with ending } : Line).shift before.length) next = some site) :
    site.IsLost (before.length + text.length) := by
  obtain ⟨span, ended, rfl⟩ := mem_siteOn?.mp found
  have sameLine :
      (({ last with ending } : Line).shift before.length).unended =
        last.shift before.length :=
    congrArg (Line.shift before.length) (unended_ending ending unended)
  refine ⟨?_, le_finish_last ending unended place,
    le_takeMarks_finish ending unended place behind _
      (OpenBlocks.next_finish ended)⟩
  rw [Site.needsEnd, sameLine, OpenBlocks.next_shift, none_completes]
  rfl

include unended place behind in
/-- A heading on the last line of a piece is the heading that the text has
there. -/
theorem heading_of_last (ends after : Text) (starts : StartsLine before)
    {blocks : OpenBlocks} {span : HeadingSpan}
    (completes : (blocks.next last).2 = some span)
    (inside : span.FitsIn text.length) :
    ∃ site,
      siteOn? (blocks.shift before.length)
          (({ last with ending } : Line).shift before.length) next =
        some site ∧
      (site.heading (before ++ text ++ (ends ++ after))).inside
          before.length text.length = span.heading text ∧
      (site.heading (before ++ text ++ (ends ++ after))).IsInside
        before.length text.length := by
  have withEnd :
      (blocks.next { last with ending }).2 =
        some (span.endAt { last with ending }) :=
    OpenBlocks.next_unended
      ((unended_ending ending unended).symm ▸ completes)
  have finish_eq : span.finish = text.length := by
    rw [OpenBlocks.next_finish completes, place]
  have found :
      siteOn? (blocks.shift before.length)
          (({ last with ending } : Line).shift before.length) next =
        some ⟨blocks.shift before.length,
          ({ last with ending } : Line).shift before.length,
          takeMarks (blocks.next { last with ending }).1.containers next
            ((span.endAt { last with ending }).shift before.length)⟩ := by
    rw [siteOn?, OpenBlocks.next_shift, withEnd]
    rfl
  have level_eq :
      (takeMarks (blocks.next { last with ending }).1.containers next
        ((span.endAt { last with ending }).shift before.length)).level =
        span.level := by
    rw [takeMarks_level]
    rfl
  refine ⟨_, found,
    heading_inside (ends ++ after) starts inside.start_le inside.textEnd_le
      inside.finish_le level_eq ?_ ?_ ?_ ?_⟩
  · rw [takeMarks_start]
    exact Nat.add_comm _ _
  · rw [takeMarks_textStart]
    exact Nat.add_comm _ _
  · rw [takeMarks_textEnd]
    exact Nat.add_comm _ _
  · rw [finish_eq]
    exact Nat.min_eq_right (le_takeMarks_finish ending unended place behind _
      (Line.finish_shift _ _).symm)

end LastLine

/-! ## The lines of a piece -/

/-- With line ends behind it a piece has the same lines, but that the last one
has an end and empty lines follow. -/
theorem cut_piece (start : Nat) (nonempty : text ≠ [])
    (fed : returnsFed (text ++ ends) = true) (visible : EndsVisibly text)
    (areEnds : AreEnds ends) :
    ∃ (front : List Line) (last : Line) (ending : Text)
        (blanks : List Line),
      Line.cut 0 [] text = front ++ [last] ∧ last.ending = [] ∧
        last.finish = text.length ∧
        Line.cut start [] (text ++ ends) =
          front.map (Line.shift start) ++
            ({ last with ending } : Line).shift start :: blanks ∧
        ∀ blank ∈ blanks, blank.content = [] := by
  have closed : text.getLast? ≠ some '\r' := fun isReturn =>
    (visible '\r' isReturn).2 rfl
  rw [returnsFed_append ends closed, Bool.and_eq_true] at fed
  obtain ⟨front, last, ending, rest, blanks, lines_eq, unended, place, -,
    longer, blank⟩ :=
    (hasLines_cut 0 fed.1).append_ends nonempty visible fed.2 areEnds
  have moved := (longer.shift start).cut_eq
  rw [Nat.zero_add, List.map_append, List.map_cons] at moved
  rw [Nat.zero_add] at place
  refine ⟨front, last, ending, blanks.map (Line.shift start), lines_eq,
    unended, place, moved, ?_⟩
  intro line member
  obtain ⟨blankLine, blankMember, rfl⟩ := List.mem_map.mp member
  exact blank blankLine blankMember

/-- The sites on lines with a last one and empty lines behind it. -/
theorem sites_moved (start : Nat) (beyond : Option Line) (front : List Line)
    (last : Line) (ending : Text) {blanks : List Line}
    (blank : ∀ line ∈ blanks, line.content = []) :
    sites .initial beyond
        (front.map (Line.shift start) ++
          ({ last with ending } : Line).shift start :: blanks) =
      (sites .initial (some last) front).map (Site.shift start) ++
        (siteOn? ((OpenBlocks.initial.after front).shift start)
          (({ last with ending } : Line).shift start)
          (blanks.head?.or beyond)).toList := by
  have frontMoved :=
    sites_shift start .initial (some { last with ending }) front
  have stateMoved := OpenBlocks.after_shift start .initial front
  rw [sites_ending] at frontMoved
  rw [sites_append, sites, sites_eq_nil _ _ blank, List.append_nil,
    ← frontMoved, ← stateMoved]
  rfl

theorem heading_shift_inside_all (after : Text) (starts : StartsLine before)
    {inner : List Site} (fits : ∀ site ∈ inner, site.span.FitsIn text.length) :
    inner.map (Site.heading text) =
        (inner.map (Site.shift before.length)).map (fun site =>
          (site.heading (before ++ text ++ after)).inside
            before.length text.length) ∧
      ∀ site ∈ inner.map (Site.shift before.length),
        (site.heading (before ++ text ++ after)).IsInside
          before.length text.length := by
  constructor
  · rw [List.map_map]
    apply List.map_congr_left
    intro site member
    exact (heading_shift_inside after starts (fits site member)).1.symm
  · intro site member
    obtain ⟨unmoved, unmovedMember, rfl⟩ := List.mem_map.mp member
    exact (heading_shift_inside after starts
      (fits unmoved unmovedMember)).2

/-- The next line that counts is neither an empty one behind a piece nor
before the end of the piece. -/
theorem start_ge_of_next {stop : Nat} {blanks : List Line}
    {beyond : Option Line} (blank : ∀ line ∈ blanks, line.content = [])
    (behind : ∀ line, beyond = some line → stop ≤ line.start) (line : Line)
    (isNext : blanks.head?.or beyond = some line)
    (nonempty : line.content ≠ []) : stop ≤ line.start := by
  cases blanks with
  | nil => exact behind line isNext
  | cons head tail =>
      injection isNext with sameLine
      refine absurd (blank head List.mem_cons_self) ?_
      rwa [sameLine]

/-- The headings of a piece are those of the text on its lines, apart from a
last one that needs the end of its line. -/
theorem headings_piece (after : Text) (starts : StartsLine before)
    (fed : returnsFed (text ++ ends) = true) (visible : EndsVisibly text)
    (areEnds : AreEnds ends)
    (plain : blockLines text = Line.cut 0 [] text) {beyond : Option Line}
    (behind : ∀ line, beyond = some line →
      before.length + text.length ≤ line.start) :
    ∃ (kept : List Site) (lost : Option Site),
      sites .initial beyond (Line.cut before.length [] (text ++ ends)) =
          kept ++ lost.toList ∧
        headings text = kept.map (fun site =>
          (site.heading (before ++ text ++ (ends ++ after))).inside
            before.length text.length) ∧
        (∀ site ∈ kept,
          (site.heading (before ++ text ++ (ends ++ after))).IsInside
            before.length text.length) ∧
        ∀ site, lost = some site →
          site.IsLost (before.length + text.length) := by
  by_cases empty : text = []
  · subst empty
    have noSites :
        sites .initial beyond (Line.cut before.length [] ([] ++ ends)) = [] :=
      sites_eq_nil _ _ ((hasLines_cut before.length fed).content_eq_nil
        areEnds)
    exact ⟨[], none, noSites, rfl, by simp, by simp⟩
  obtain ⟨front, last, ending, blanks, lines_eq, unended, place, moved,
    blank⟩ := cut_piece before.length empty fed visible areEnds
  have insideAll : ∀ site ∈ textSites text, site.span.FitsIn text.length := by
    rw [textSites, plain]
    exact sites_inside (successive_cut (by simp))
      (OpenBlocks.within_initial 0 0)
  have textSites_eq :
      textSites text = sites .initial (some last) front ++
        (siteOn? (OpenBlocks.initial.after front) last none).toList := by
    rw [textSites, plain, lines_eq, sites_append]
    exact congrArg _ (List.append_nil _)
  rw [textSites_eq] at insideAll
  have behindLast := start_ge_of_next blank behind
  obtain ⟨frontHeadings, frontInside⟩ :=
    heading_shift_inside_all (ends ++ after) starts
      fun site member => insideAll site (List.mem_append_left _ member)
  rw [moved, sites_moved _ _ _ _ _ blank, headings_eq, textSites_eq,
    List.map_append, frontHeadings]
  cases completes : ((OpenBlocks.initial.after front).next last).2 with
  | none =>
      refine ⟨_, _, rfl, ?_, frontInside, fun site found =>
        isLost_of_last ending unended place behindLast completes found⟩
      rw [siteOn?, completes]
      exact List.append_nil _
  | some span =>
      have found :
          siteOn? (OpenBlocks.initial.after front) last none =
            some ⟨OpenBlocks.initial.after front, last, span⟩ := by
        rw [siteOn?, completes]
        rfl
      have fits : span.FitsIn text.length :=
        insideAll ⟨OpenBlocks.initial.after front, last, span⟩
          (List.mem_append_right _ (by rw [found]; simp))
      obtain ⟨site, isSite, heading_eq, isInside⟩ :=
        heading_of_last ending unended place behindLast ends after starts
          completes fits
      refine ⟨(sites .initial (some last) front).map
        (Site.shift before.length) ++ [site], none, ?_, ?_, ?_, by simp⟩
      · rw [isSite, Option.toList_none, List.append_nil]
        rfl
      · rw [found, List.map_append, List.map_singleton, heading_eq]
        rfl
      · intro other member
        rcases List.mem_append.mp member with shifted | isLast
        · exact frontInside other shifted
        · rw [List.mem_singleton.mp isLast]
          exact isInside

end Piece

end ComponentDocs.Markdown
