import ComponentDocs.Proofs.Markdown.Fence
import ComponentDocs.Proofs.Markdown.Range

/-!
Texts in two parts: the headings of the first part, and below them those that
the second part has when nothing is open above it. A code block between the
parts moves the headings below it and changes nothing else.
-/

namespace ComponentDocs.Markdown

/-! ## Lines in two parts -/

/-- A text may be cut after a line feed, wherever carriage returns stand. -/
theorem cut_append_feed {start stop : Nat} {held first : Text}
    (second : Text) (place : stop = start + held.length + first.length + 1) :
    Line.cut start held (first ++ '\n' :: second) =
      Line.cut start held (first ++ ['\n']) ++ Line.cut stop [] second := by
  fun_induction Line.cut start held first with
  | case1 start held empty =>
      subst place
      rfl
  | case2 start held nonempty =>
      subst place
      rfl
  | case3 start held rest inductionHypothesis =>
      rw [List.cons_append, List.cons_append, Line.cut, Line.cut,
        inductionHypothesis (by simp [place]; omega), List.cons_append]
  | case4 start held rest inductionHypothesis =>
      rw [List.cons_append, List.cons_append, List.cons_append,
        List.cons_append, Line.cut, Line.cut,
        inductionHypothesis (by simp [place]; omega), List.cons_append]
  | case5 start held rest notFed inductionHypothesis =>
      cases rest with
      | nil =>
          subst place
          rfl
      | cons next others =>
          have notFeed (tail : Text) (after : Text)
              (same : next :: (others ++ after) = '\n' :: tail) : False :=
            notFed others (by rw [(List.cons.inj same).1])
          have cutReturn (after : Text) :
              Line.cut start held ('\r' :: next :: (others ++ after)) =
                ⟨start, held.reverse, ['\r']⟩ ::
                  Line.cut (start + held.length + 1) []
                    (next :: (others ++ after)) :=
            Line.cut.eq_4 _ _ _ fun tail same => notFeed tail after same
          have inner := inductionHypothesis (by simp [place]; omega)
          simp only [List.cons_append] at inner ⊢
          rw [cutReturn, cutReturn, inner, List.cons_append]
  | case6 start held character rest notFeed notFed notReturn
      inductionHypothesis =>
      have cutMore (after : Text) :
          Line.cut start held (character :: (rest ++ after)) =
            Line.cut start (character :: held) (rest ++ after) :=
        Line.cut.eq_5 start held character _ notFeed
          (fun _ same => absurd same notReturn) notReturn
      rw [List.cons_append, List.cons_append, cutMore, cutMore,
        inductionHypothesis (by simp [place]; omega)]

/-- What stands on a line stands in the text. -/
theorem mem_of_mem_cut {start : Nat} {held text : Text} {line : Line}
    (member : line ∈ Line.cut start held text) {character : Char}
    (inside : character ∈ line.content) :
    character ∈ held ∨ character ∈ text := by
  have ofHeld {held : Text} (isHeld : line.content = held.reverse) :
      character ∈ held := by
    rwa [isHeld, List.mem_reverse] at inside
  fun_induction Line.cut start held text with
  | case1 start held empty =>
      cases member
  | case2 start held nonempty =>
      exact .inl (ofHeld (congrArg Line.content (List.mem_singleton.mp member)))
  | case3 start held rest inductionHypothesis =>
      rcases List.mem_cons.mp member with rfl | later
      · exact .inl (ofHeld rfl)
      · have inRest := (inductionHypothesis later).resolve_left
          List.not_mem_nil
        exact .inr (List.mem_cons_of_mem _ inRest)
  | case4 start held rest inductionHypothesis =>
      rcases List.mem_cons.mp member with rfl | later
      · exact .inl (ofHeld rfl)
      · have inRest := (inductionHypothesis later).resolve_left
          List.not_mem_nil
        exact .inr (List.mem_cons_of_mem _ (List.mem_cons_of_mem _ inRest))
  | case5 start held rest notFed inductionHypothesis =>
      rcases List.mem_cons.mp member with rfl | later
      · exact .inl (ofHeld rfl)
      · have inRest := (inductionHypothesis later).resolve_left
          List.not_mem_nil
        exact .inr (List.mem_cons_of_mem _ inRest)
  | case6 start held first rest notFeed notFed notReturn
      inductionHypothesis =>
      rcases inductionHypothesis member with inHeld | inRest
      · rcases List.mem_cons.mp inHeld with rfl | inHeld
        · exact .inr List.mem_cons_self
        · exact .inl inHeld
      · exact .inr (List.mem_cons_of_mem _ inRest)

theorem cut_shift (amount start : Nat) (held text : Text) :
    Line.cut (start + amount) held text =
      (Line.cut start held text).map (Line.shift amount) := by
  have moved (start length count : Nat) :
      start + amount + length + count = start + length + count + amount := by
    omega
  fun_induction Line.cut start held text with
  | case1 start held empty =>
      rw [Line.cut, if_pos empty]
      rfl
  | case2 start held nonempty =>
      rw [Line.cut, if_neg nonempty]
      rfl
  | case3 start held rest inductionHypothesis =>
      rw [Line.cut, moved, inductionHypothesis]
      rfl
  | case4 start held rest inductionHypothesis =>
      rw [Line.cut, moved, inductionHypothesis]
      rfl
  | case5 start held rest notFed inductionHypothesis =>
      rw [Line.cut.eq_4 _ _ _ notFed, moved, inductionHypothesis]
      rfl
  | case6 start held first rest notFeed notFed notReturn
      inductionHypothesis =>
      rw [Line.cut.eq_5 _ _ _ _ notFeed notFed notReturn,
        inductionHypothesis]

theorem successive_blockLines (text : Text) :
    Successive 0 text.length (blockLines text) := by
  unfold blockLines
  split
  · rename_i rest
    exact ((successive_cut (by simp; omega)).of_suffix
      (withoutMetadata_suffix _)).mono (Nat.zero_le 1)
  · exact (successive_cut (by simp)).of_suffix (withoutMetadata_suffix _)

/-! ## Headings in two parts -/

theorem headingSpans_shift (amount : Nat) (blocks : OpenBlocks)
    (lines : List Line) :
    headingSpans (blocks.shift amount) (lines.map (Line.shift amount)) =
      (headingSpans blocks lines).map (HeadingSpan.shift amount) := by
  rw [headingSpans_eq, headingSpans_eq, List.map_map]
  exact (congrArg (List.map Site.span)
    (sites_shift amount blocks none lines)).trans (List.map_map ..)

/-- The headings on lines in two parts, when the first line of the second part
has no marks of the containers that are open before it. -/
theorem headingSpans_append {blocks : OpenBlocks} {lines others : List Line}
    (noMarks : ∀ line, others.head? = some line →
      continuesWithMarks (blocks.after lines).containers line = false) :
    headingSpans blocks (lines ++ others) =
      headingSpans blocks lines ++
        headingSpans (blocks.after lines) others := by
  induction lines generalizing blocks with
  | nil =>
      rfl
  | cons line rest inductionHypothesis =>
      have sameMarks (span : HeadingSpan) :
          takeMarks (blocks.next line).1.containers
              (rest ++ others).head? span =
            takeMarks (blocks.next line).1.containers rest.head? span := by
        cases rest with
        | cons next further => rfl
        | nil =>
            cases others with
            | nil => rfl
            | cons next further =>
                have unmarked :
                    continuesWithMarks (blocks.next line).1.containers next =
                      false :=
                  noMarks next rfl
                change takeMarks _ (some next) span = span
                unfold takeMarks
                dsimp only
                rw [unmarked, if_neg Bool.false_ne_true]
      rw [List.cons_append, headingSpans, headingSpans]
      dsimp only
      rw [inductionHypothesis noMarks]
      cases (blocks.next line).2 with
      | none => rfl
      | some span =>
          dsimp only
          rw [sameMarks]
          rfl

/-- Every heading on lines that stand up to an offset stands up to it. -/
theorem fitsIn_of_mem_headingSpans {blocks : OpenBlocks} {start stop : Nat}
    {lines : List Line} (successive : Successive start stop lines)
    (placed : blocks.Within 0 start) :
    ∀ span ∈ headingSpans blocks lines, span.FitsIn stop := by
  rw [headingSpans_eq]
  intro span member
  obtain ⟨site, isSite, rfl⟩ := List.mem_map.mp member
  exact sites_inside successive placed site isSite

/-! ## Places in two parts -/

theorem nextLineStart_le (text : Text) {offset : Nat}
    (inside : offset ≤ text.length) :
    nextLineStart text offset ≤ text.length := by
  unfold nextLineStart
  split
  · exact inside
  · dsimp only
    have fits := (List.takeWhile_prefix (· != '\n')
      (l := text.drop offset)).length_le
    rw [List.length_drop] at fits ⊢
    split <;> omega

/-- Behind the last line feed of a text nothing counts for its lines. -/
theorem nextLineStart_append_left {above : Text} (starts : StartsLine above)
    (rest : Text) {offset : Nat} (inside : offset ≤ above.length) :
    nextLineStart (above ++ rest) offset = nextLineStart above offset := by
  cases offset with
  | zero => rfl
  | succ previous =>
      have sameCharacter : (above ++ rest)[previous]? = above[previous]? :=
        List.getElem?_append_left inside
      unfold nextLineStart
      rw [Nat.add_sub_cancel, sameCharacter,
        List.drop_append_of_le_length inside]
      split
      · rfl
      · rename_i notStart
        have notFeed : above[previous]? ≠ some '\n' := by
          simpa using notStart
        -- The line ends inside the first part, which ends in a line feed.
        have feed : '\n' ∈ above.drop (previous + 1) := by
          have nonempty : above ≠ [] := by
            rintro rfl
            cases inside
          have last := starts.resolve_left nonempty
          rw [List.getLast?_eq_getElem?] at last
          have before : previous + 1 ≤ above.length - 1 := by
            by_contra late
            have same : above.length - 1 = previous := by omega
            exact notFeed (same ▸ last)
          rw [List.mem_iff_getElem?]
          refine ⟨above.length - 1 - (previous + 1), ?_⟩
          rw [List.getElem?_drop, Nat.add_sub_cancel' before, last]
        have short :
            ((above.drop (previous + 1)).takeWhile (· != '\n')).length ≠
              (above.drop (previous + 1)).length := by
          intro whole
          have all := List.takeWhile_eq_self_iff.mp
            ((List.takeWhile_prefix _).eq_of_length whole)
          exact absurd (all _ feed) (by decide)
        dsimp only
        rw [List.takeWhile_append, if_neg short, if_neg short, if_neg]
        have fits := (List.takeWhile_prefix (· != '\n')
          (l := above.drop (previous + 1))).length_le
        rw [List.length_append]
        omega

/-- The next line starts at the first start of a line from an offset on, and is
missed only where the text ends. -/
theorem startsLine_take_nextLineStart (text : Text) (offset : Nat) :
    StartsLine (text.take (nextLineStart text offset)) ∨
      nextLineStart text offset = text.length := by
  have startsLine_take_succ {previous : Nat}
      (feed : text[previous]? = some '\n') :
      StartsLine (text.take (previous + 1)) := by
    right
    rw [List.getLast?_take, if_neg (Nat.succ_ne_zero _), Nat.add_sub_cancel,
      feed]
    rfl
  unfold nextLineStart
  split
  · rename_i isStart
    left
    cases offset with
    | zero => exact .inl rfl
    | succ previous =>
        exact startsLine_take_succ (by simpa using isStart)
  · dsimp only
    split
    · exact .inr rfl
    · rename_i stops
      left
      apply startsLine_take_succ
      have parts := List.takeWhile_append_dropWhile
        (p := (· != '\n')) (l := text.drop offset)
      have fails := List.head?_dropWhile_not (· != '\n') (text.drop offset)
      cases rest : (text.drop offset).dropWhile (· != '\n') with
      | nil =>
          rw [rest, List.append_nil] at parts
          exact absurd (congrArg List.length parts) stops
      | cons first after =>
          rw [rest] at parts fails
          have isFeed : first = '\n' := by simpa using fails
          have found := congrArg
            (·[((text.drop offset).takeWhile (· != '\n')).length]?) parts
          simp only [isFeed, List.getElem?_append_right (Nat.le_refl _),
            Nat.sub_self, List.getElem?_cons_zero] at found
          rw [← List.getElem?_drop, ← found]

/-- A later offset has no earlier next line. -/
theorem nextLineStart_mono (text : Text) {offset later : Nat}
    (le : offset ≤ later) (inside : later ≤ text.length) :
    nextLineStart text offset ≤ nextLineStart text later := by
  have behind := le_nextLineStart text later
  rw [Nat.min_eq_left inside] at behind
  have next_le := nextLineStart_le text inside
  rcases startsLine_take_nextLineStart text later with starts | isEnd
  · have length_eq :
        (text.take (nextLineStart text later)).length =
          nextLineStart text later := by
      rw [List.length_take, Nat.min_eq_left next_le]
    have fits : offset ≤ (text.take (nextLineStart text later)).length := by
      omega
    have same := nextLineStart_append_left starts
      (text.drop (nextLineStart text later)) fits
    rw [List.take_append_drop] at same
    rw [same]
    exact (nextLineStart_le _ fits).trans_eq length_eq
  · rw [isEnd]
    exact nextLineStart_le text (le.trans inside)

theorem nextLineStart_append_right {before : Text}
    (starts : StartsLine before) (text : Text) (offset : Nat) :
    nextLineStart (before ++ text) (before.length + offset) =
      before.length + nextLineStart text offset := by
  cases offset with
  | zero => exact nextLineStart_of_startsLine starts text
  | succ previous =>
      have outer :
          before.length + (previous + 1) - 1 = before.length + previous := by
        omega
      have sameCharacter :
          (before ++ text)[before.length + previous]? = text[previous]? := by
        rw [List.getElem?_append_right (Nat.le_add_right _ _),
          Nat.add_sub_cancel_left]
      unfold nextLineStart
      rw [outer, sameCharacter, List.drop_length_add_append,
        Nat.add_sub_cancel, List.length_append]
      simp only [Nat.add_eq_zero_iff, Nat.succ_ne_zero, and_false,
        decide_false, Bool.false_or]
      split
      · rfl
      · split <;> omega

/-- A heading above the end of a line is the same with more lines below. -/
theorem heading_append_left {above : Text} (starts : StartsLine above)
    (rest : Text) {span : HeadingSpan} (fits : span.FitsIn above.length) :
    span.heading (above ++ rest) = span.heading above := by
  rw [HeadingSpan.heading, HeadingSpan.heading,
    List.take_append_of_le_length fits.textEnd_le,
    lineStart_append_left rest fits.start_le,
    nextLineStart_append_left starts rest fits.finish_le]

def Heading.shift (amount : Nat) (heading : Heading) : Heading :=
  { heading with
    start := heading.start + amount
    bodyStart := heading.bodyStart + amount }

theorem heading_append_right {before : Text} (starts : StartsLine before)
    (text : Text) (span : HeadingSpan) :
    (span.shift before.length).heading (before ++ text) =
      (span.heading text).shift before.length := by
  rw [HeadingSpan.heading, HeadingSpan.heading, HeadingSpan.shift,
    Heading.shift]
  simp only [Nat.add_comm _ before.length, List.take_length_add_append,
    List.drop_length_add_append, lineStart_append_right starts,
    nextLineStart_append_right starts]

/-! ## Texts in two parts -/

/-- The headings of a text of which all lines count. -/
def innerHeadings (text : Text) : List Heading :=
  (headingSpans .initial (Line.cut 0 [] text)).map (HeadingSpan.heading text)

/-- The headings of a text in two parts are those of its parts, each read on
its own. -/
def Splits (above below : Text) : Prop :=
  headings (above ++ below) =
    headings above ++ (innerHeadings below).map (Heading.shift above.length)

instance (above below : Text) : Decidable (Splits above below) :=
  inferInstanceAs (Decidable (_ = _))

/-- The lines above are the same with the lines below: no metadata block
reaches from one part into the other. -/
def KeepsLines (above rest : Text) : Prop :=
  blockLines (above ++ rest) =
    blockLines above ++ Line.cut above.length [] rest

instance (above rest : Text) : Decidable (KeepsLines above rest) :=
  inferInstanceAs (Decidable (_ = _))

/-- The blocks that are open at the end of a text. -/
def openAtEnd (text : Text) : OpenBlocks :=
  OpenBlocks.initial.after (blockLines text)

theorem map_heading_above {above : Text} (starts : StartsLine above)
    (rest : Text) :
    (headingSpans .initial (blockLines above)).map
        (HeadingSpan.heading (above ++ rest)) = headings above := by
  apply List.map_congr_left
  intro span member
  exact heading_append_left starts rest <|
    fitsIn_of_mem_headingSpans (successive_blockLines above)
      (OpenBlocks.within_initial 0 0) span member

theorem map_heading_below {above : Text} (starts : StartsLine above)
    (rest : Text) :
    (headingSpans .initial (Line.cut above.length [] rest)).map
        (HeadingSpan.heading (above ++ rest)) =
      (innerHeadings rest).map (Heading.shift above.length) := by
  have moved := cut_shift above.length 0 [] rest
  rw [Nat.zero_add] at moved
  have spans :
      headingSpans .initial (Line.cut above.length [] rest) =
        (headingSpans .initial (Line.cut 0 [] rest)).map
          (HeadingSpan.shift above.length) := by
    rw [moved]
    exact headingSpans_shift above.length .initial _
  rw [spans, innerHeadings, List.map_map, List.map_map]
  apply List.map_congr_left
  intro span _
  exact heading_append_right starts rest span

/-- A text splits where the lines of the second part are read as if nothing
were open above them. -/
theorem splits_of_afresh {above rest : Text} (starts : StartsLine above)
    (keeps : KeepsLines above rest)
    (noMarks : ∀ line, (Line.cut above.length [] rest).head? = some line →
      continuesWithMarks (openAtEnd above).containers line = false)
    (afresh :
      headingSpans (openAtEnd above) (Line.cut above.length [] rest) =
        headingSpans .initial (Line.cut above.length [] rest)) :
    Splits above rest := by
  rw [Splits, headings, keeps, headingSpans_append noMarks, List.map_append,
    map_heading_above starts]
  congr 1
  change (headingSpans (openAtEnd above) _).map _ = _
  rw [afresh, map_heading_below starts]

/-! ## Code between two parts -/

theorem cut_line (start : Nat) {content : Text} (plain : IsPlain content)
    (rest : Text) :
    Line.cut start [] (content ++ '\n' :: rest) =
      ⟨start, content, ['\n']⟩ ::
        Line.cut (start + content.length + 1) [] rest := by
  rw [cut_append_of_isPlain start [] plain, List.append_nil, Line.cut,
    List.reverse_reverse, List.length_reverse]

namespace FencedCode

variable (fenced : FencedCode)

theorem isPlain_openingFence (length : Nat) {info : Text}
    (plain : IsPlain info) : IsPlain (openingFence length info) := by
  constructor
  · simpa [openingFence, tick] using plain.noFeed
  · simpa [openingFence, tick] using plain.noReturn

/-- The lines of a code block: the opening fence below a blank line, lines
without back-ticks, and the closing fence above a blank line. -/
theorem exists_cut (start : Nat) (below : Text) :
    ∃ (blank opening closing last : Line) (code : List Line) (stop : Nat),
      Line.cut start [] (fenced.text ++ below) =
          blank :: opening :: (code ++ closing :: last ::
            Line.cut stop [] below) ∧
        stop = start + fenced.text.length ∧ blank.content = [] ∧
        opening.content = openingFence fenced.length fenced.info ∧
        (∀ line ∈ code, tick ∉ line.content) ∧
        closing.content = openingFence fenced.length [] ∧
        last.content = [] := by
  have opens := isPlain_openingFence fenced.length fenced.plain
  have closes := isPlain_openingFence fenced.length isPlain_nil
  have whole :
      fenced.text ++ below =
        [] ++ '\n' :: (openingFence fenced.length fenced.info ++
          '\n' :: (fenced.code ++ '\n' ::
            (openingFence fenced.length [] ++ '\n' ::
              ([] ++ '\n' :: below)))) := by
    simp [text, lines]
  rw [whole, cut_line _ isPlain_nil, cut_line _ opens,
    cut_append_feed _ rfl, cut_line _ closes, cut_line _ isPlain_nil]
  refine ⟨_, _, _, _, _, _, rfl, ?_, rfl, rfl, ?_, rfl, rfl⟩
  · simp [text, lines]
    omega
  · intro line member inside
    rcases mem_of_mem_cut member inside with none | inCode
    · cases none
    · rcases List.mem_append.mp inCode with inCode | isFeed
      · exact fenced.codeTicks inCode
      · exact absurd (List.mem_singleton.mp isFeed) (by decide)

/-- Below a code block the lines are read as if nothing were open above. -/
theorem headingSpans_cut {blocks : OpenBlocks} (takes : blocks.TakesFence)
    (wide : blocks.IsWide) (start : Nat) (below : Text) :
    headingSpans blocks (Line.cut start [] (fenced.text ++ below)) =
      headingSpans .initial
        (Line.cut (start + fenced.text.length) [] below) := by
  obtain ⟨blank, opening, closing, last, code, stop, cut_eq, rfl, isBlank,
    opens, isCode, closes, isLast⟩ := fenced.exists_cut start below
  have positive : 0 < fenced.length :=
    Nat.lt_of_lt_of_le (by decide) fenced.long
  have skips : blocks.next blank = ((blocks.next blank).1, none) :=
    Prod.ext rfl (blocks.next_of_content_eq_nil isBlank)
  rw [cut_eq, OpenBlocks.headingSpans_cons skips,
    OpenBlocks.headingSpans_cons <|
      (takes.next_of_empty isBlank).next_of_openingFence (wide.next blank)
        fenced.long fenced.infoTicks opens,
    OpenBlocks.headingSpans_of_code positive isCode,
    OpenBlocks.headingSpans_cons <|
      OpenBlocks.next_of_closingFence fenced.long closes,
    OpenBlocks.headingSpans_cons <|
      OpenBlocks.isFlat_initial.next_of_empty isLast]

theorem startsLine_text : StartsLine fenced.text := by
  right
  rw [text, ← List.cons_append, List.getLast?_append]
  rfl

theorem innerHeadings_text_append (below : Text) :
    innerHeadings (fenced.text ++ below) =
      (innerHeadings below).map (Heading.shift fenced.text.length) := by
  have takes : OpenBlocks.initial.TakesFence := fun _ => rfl
  rw [innerHeadings, fenced.headingSpans_cut takes OpenBlocks.isWide_initial,
    Nat.zero_add, map_heading_below fenced.startsLine_text]

end FencedCode

/-- A place between two blocks of a text, where a code block may stand: a line
starts there, the headings above and below do not depend on each other, and
neither other code, HTML nor metadata reaches across it. -/
structure TakesCode (fenced : FencedCode) (above below : Text) : Prop where
  starts : StartsLine above
  splits : Splits above below
  takes : (openAtEnd above).TakesFence
  keeps : KeepsLines above (fenced.text ++ below)

/-- The headings above a code block do not depend on those below it. -/
theorem TakesCode.splits_insert {fenced : FencedCode} {above below : Text}
    (place : TakesCode fenced above below) :
    Splits above (fenced.text ++ below) := by
  have wide : (openAtEnd above).IsWide :=
    OpenBlocks.isWide_initial.after (blockLines above)
  have initialTakes : OpenBlocks.initial.TakesFence := fun _ => rfl
  apply splits_of_afresh place.starts place.keeps
  · intro line isFirst
    obtain ⟨blank, opening, closing, last, code, stop, cut_eq, -, isBlank,
      -⟩ := fenced.exists_cut above.length below
    rw [cut_eq] at isFirst
    obtain rfl : blank = line := Option.some.inj isFirst
    exact continuesWithMarks_of_content_eq_nil _ isBlank
  · rw [fenced.headingSpans_cut place.takes wide,
      fenced.headingSpans_cut initialTakes OpenBlocks.isWide_initial]

end ComponentDocs.Markdown
