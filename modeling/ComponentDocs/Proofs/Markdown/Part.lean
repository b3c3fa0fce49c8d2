import ComponentDocs.Proofs.Markdown.Flat
import ComponentDocs.Proofs.Markdown.Range
import ComponentDocs.Proofs.Text.Join

/-!
Texts written in parts, each a hash heading and flat lines below it: the
headings of such a text are those of its parts, in order and in place.
-/

namespace ComponentDocs.Markdown

/-! ## Written lines -/

/-- The lines of pieces that line feeds join are these pieces. -/
theorem hasLines_join (start : Nat) {pieces : List Text}
    (plain : ∀ piece ∈ pieces, IsPlain piece) :
    ∃ lines, HasLines start (Text.join ['\n'] pieces) lines ∧
      ∀ line ∈ lines, line.content ∈ pieces := by
  induction pieces generalizing start with
  | nil =>
      exact ⟨[], .nil start, by simp⟩
  | cons first rest inductionHypothesis =>
      have plainFirst := plain first List.mem_cons_self
      cases rest with
      | nil =>
          by_cases empty : first = []
          · subst empty
            exact ⟨[], .nil start, by simp⟩
          · exact ⟨_, .last start plainFirst empty, by simp [Text.join]⟩
      | cons second others =>
          obtain ⟨lines, has, known⟩ := inductionHypothesis
            (start + first.length + ['\n'].length)
            fun piece member => plain piece (List.mem_cons_of_mem _ member)
          refine ⟨_, .line start plainFirst (.inl rfl) has, ?_⟩
          intro line member
          rcases List.mem_cons.mp member with rfl | member
          · exact List.mem_cons_self
          · exact List.mem_cons_of_mem _ (known line member)

theorem isPlain_hashLine (level : Nat) {name : Text} (plain : IsPlain name) :
    IsPlain (hashLine level name) := by
  constructor
  · simpa [hashLine] using plain.noFeed
  · simpa [hashLine] using plain.noReturn

/-! ## Parts -/

/-- A hash heading with the lines below it, of which none marks a heading. -/
structure Part where
  level : Nat
  name : Text
  pieces : List Text
  level_pos : 1 ≤ level
  level_le : level ≤ 6
  named : IsHeadingName name
  plain : ∀ piece ∈ pieces, IsPlain piece
  flat : ∀ piece ∈ pieces, IsFlatLine piece

namespace Part

variable (part : Part)

def content : Text :=
  Text.join ['\n'] part.pieces

def headLine : Text :=
  hashLine part.level part.name ++ ['\n']

def text : Text :=
  part.headLine ++ part.content

/-- The heading of the part that stands at an offset. -/
def headingAt (start : Nat) : Heading :=
  ⟨part.level, part.name, start, start + part.headLine.length⟩

def lineAt (start : Nat) : Line :=
  ⟨start, hashLine part.level part.name, ['\n']⟩

@[simp]
theorem length_headLine :
    part.headLine.length = part.level + part.name.length + 2 := by
  simp [headLine, hashLine]
  omega

theorem headLine_ends (before : Text) :
    StartsLine (before ++ part.headLine) := by
  right
  rw [headLine, ← List.append_assoc, List.getLast?_concat]

/-- The lines of a part: that of the heading and flat ones. -/
theorem exists_lines (start : Nat) :
    ∃ lines, HasLines start part.text (part.lineAt start :: lines) ∧
      ∀ line ∈ lines, IsFlatLine line.content := by
  obtain ⟨lines, has, known⟩ :=
    hasLines_join (start + (hashLine part.level part.name).length + 1)
      part.plain
  exact ⟨lines,
    .line start (isPlain_hashLine _ part.named.plain) (.inl rfl) has,
    fun line member => part.flat _ (known line member)⟩

/-- What is below the heading starts with a line end or a pipe. -/
theorem head?_content {first : Char}
    (starts : part.content.head? = some first) :
    first = '\n' ∨ first = '|' := by
  have flat := part.flat
  rw [content] at starts
  cases shape : part.pieces with
  | nil =>
      rw [shape] at starts
      cases starts
  | cons piece others =>
      rw [shape] at flat starts
      rcases flat piece List.mem_cons_self with rfl | pipe
      · cases others with
        | nil => cases starts
        | cons second others =>
            left
            rw [Text.join_cons_cons] at starts
            simpa using starts.symm
      · rw [Text.head?_join pipe, Option.some.injEq] at starts
        exact .inr starts.symm

/-- The site of the heading of the part that stands at an offset. -/
def siteAt (blocks : OpenBlocks) (start : Nat) : Site :=
  ⟨blocks, part.lineAt start,
    hashSpan part.level part.name (part.lineAt start)⟩

section Site

variable {blocks : OpenBlocks} (flat : blocks.IsFlat) (start : Nat)

include flat

theorem next_lineAt :
    blocks.next (part.lineAt start) =
      (.initial, some (hashSpan part.level part.name (part.lineAt start))) :=
  flat.next_of_hashLine part.level_pos part.level_le part.named.nonempty
    part.named.trimmed rfl

theorem siteOn?_lineAt (next : Option Line) :
    siteOn? blocks (part.lineAt start) next =
      some (part.siteAt blocks start) := by
  rw [siteOn?, part.next_lineAt flat, Option.map_some]
  dsimp only
  rw [OpenBlocks.isFlat_initial.containers_eq, takeMarks_nil]
  rfl

theorem following_siteAt :
    (part.siteAt blocks start).following.containers = [] := by
  rw [Site.following, siteAt, part.next_lineAt flat]
  rfl

/-- The heading is one without the end of its line, too. -/
theorem needsEnd_siteAt :
    (part.siteAt blocks start).needsEnd = false := by
  have content_eq :
      (part.lineAt start).unended.content = hashLine part.level part.name :=
    rfl
  have unended := flat.next_of_hashLine part.level_pos part.level_le
    part.named.nonempty part.named.trimmed content_eq
  rw [Site.needsEnd, siteAt, unended]
  rfl

end Site

/-- The heading of a part that starts with a line stands where it is written,
and has the name that is written. -/
theorem heading_siteAt (blocks : OpenBlocks) {before : Text}
    (starts : StartsLine before) (after : Text) :
    (part.siteAt blocks before.length).heading
        (before ++ (part.text ++ after)) =
      part.headingAt before.length := by
  have name_eq :
      ((before ++ (part.text ++ after)).take
          (part.lineAt before.length).contentEnd).drop
            ((part.lineAt before.length).contentEnd - part.name.length) =
        part.name := by
    have parts :
        before ++ (part.text ++ after) =
          before ++ (List.replicate part.level '#' ++ [' ']) ++ part.name ++
            ('\n' :: (part.content ++ after)) := by
      simp [text, headLine, hashLine]
    have end_eq :
        (part.lineAt before.length).contentEnd =
          (before ++ (List.replicate part.level '#' ++ [' ']) ++
            part.name).length := by
      simp [lineAt, Line.contentEnd, hashLine]
    rw [parts, end_eq, List.take_left, List.length_append,
      Nat.add_sub_cancel, List.drop_left]
  have bodyStart_eq :
      nextLineStart (before ++ (part.text ++ after))
          (part.lineAt before.length).finish =
        before.length + part.headLine.length := by
    have parts :
        before ++ (part.text ++ after) =
          before ++ part.headLine ++ (part.content ++ after) := by
      simp [text]
    have finish_eq :
        (part.lineAt before.length).finish =
          (before ++ part.headLine).length := by
      simp [lineAt, Line.finish, Line.contentEnd, headLine]
      omega
    rw [parts, finish_eq,
      nextLineStart_of_startsLine (part.headLine_ends before),
      List.length_append]
  simp only [Site.heading, HeadingSpan.heading, siteAt, hashSpan, name_eq,
    part.named.kept, bodyStart_eq]
  exact congrArg (Heading.mk _ _ · _) (lineStart_of_startsLine starts _)

end Part

/-! ## Texts of parts -/

/-- The text of parts one after another. -/
def textOf (parts : List Part) : Text :=
  (parts.map Part.text).flatten

/-- The headings of parts one after another, the first at an offset. -/
def headingsAt (start : Nat) : List Part → List Heading
  | [] => []
  | part :: rest =>
      part.headingAt start :: headingsAt (start + part.text.length) rest

/-- Each part but the last one ends with a line. -/
def AreClosed : List Part → Prop
  | [] => True
  | [_] => True
  | part :: second :: others =>
      StartsLine part.content ∧ AreClosed (second :: others)

/-- The headings of a text of parts are those of the parts, and each is a
heading by its line alone. -/
theorem sites_textOf {before : Text} {parts : List Part}
    {blocks : OpenBlocks} (flat : blocks.IsFlat) (starts : StartsLine before)
    (closed : AreClosed parts) :
    ∃ lines, HasLines before.length (textOf parts) lines ∧
      (sites blocks none lines).map
          (Site.heading (before ++ textOf parts)) =
        headingsAt before.length parts ∧
      ∀ site ∈ sites blocks none lines,
        site.following.containers = [] ∧ site.needsEnd = false := by
  -- A part is read from flat blocks and leaves flat blocks to the next one.
  induction parts generalizing before blocks with
  | nil =>
      exact ⟨[], .nil _, rfl, by simp [sites]⟩
  | cons part rest inductionHypothesis =>
      obtain ⟨lines, has, flatLines⟩ := part.exists_lines before.length
      have isFlat : (OpenBlocks.initial.after lines).IsFlat :=
        OpenBlocks.isFlat_initial.after flatLines
      have sites_eq (others : List Line) :
          sites blocks none (part.lineAt before.length :: lines ++ others) =
            part.siteAt blocks before.length ::
              sites (OpenBlocks.initial.after lines) none others := by
        rw [List.cons_append, sites, part.siteOn?_lineAt flat,
          part.next_lineAt flat, sites_append,
          OpenBlocks.isFlat_initial.sites_eq_nil flatLines]
        rfl
      have own :
          (part.siteAt blocks before.length).following.containers = [] ∧
            (part.siteAt blocks before.length).needsEnd = false :=
        ⟨part.following_siteAt flat _, part.needsEnd_siteAt flat _⟩
      have heading_eq := part.heading_siteAt blocks starts (textOf rest)
      cases rest with
      | nil =>
          have ownSites := sites_eq []
          rw [List.append_nil] at ownSites
          refine ⟨part.lineAt before.length :: lines, ?_, ?_, ?_⟩
          · simpa [textOf] using has
          · rw [ownSites, sites, List.map_singleton]
            exact congrArg (· :: []) heading_eq
          · rw [ownSites]
            simpa [sites] using own
      | cons second others =>
          have ended : StartsLine part.text :=
            (part.headLine_ends []).append closed.1
          obtain ⟨below, hasBelow, headings_eq, flatBelow⟩ :=
            inductionHypothesis isFlat (starts.append ended) closed.2
          have whole :
              before ++ textOf (part :: second :: others) =
                before ++ part.text ++ textOf (second :: others) := by
            simp [textOf]
          refine ⟨part.lineAt before.length :: lines ++ below, ?_, ?_, ?_⟩
          · rw [List.length_append] at hasBelow
            exact has.append ended hasBelow
          · rw [sites_eq, List.map_cons, whole, headings_eq,
              List.length_append, List.append_assoc]
            exact congrArg (· :: _) heading_eq
          · rw [sites_eq]
            intro site member
            rcases List.mem_cons.mp member with rfl | member
            · exact own
            · exact flatBelow site member

theorem head?_textOf (part : Part) (rest : List Part) :
    (textOf (part :: rest)).head? = some '#' := by
  obtain ⟨fewer, shape⟩ := Nat.exists_eq_add_of_le' part.level_pos
  simp [textOf, Part.text, Part.headLine, hashLine, shape,
    List.replicate_succ]

/-! ## Texts without metadata -/

theorem metadataMark?_eq_none {line : Line}
    (starts : ∀ first, line.content.head? = some first →
      first = '\n' ∨ first = '|' ∨ first = '#') :
    metadataMark? line = none := by
  cases shape : line.content with
  | nil =>
      have start : Cursor.ofLine line = ⟨0, []⟩ := by
        rw [Cursor.ofLine, shape]
      rw [metadataMark?, start]
      rfl
  | cons character others =>
      have start : Cursor.ofLine line = ⟨0, character :: others⟩ := by
        rw [Cursor.ofLine, shape]
      rw [metadataMark?, start]
      rcases starts character (by rw [shape]; rfl) with rfl | rfl | rfl <;> rfl

/-- A text that starts with an empty line, a pipe or hashes has all its lines
count. -/
theorem blockLines_of_head {text : Text} (fed : returnsFed text = true)
    (starts : ∀ first, text.head? = some first →
      first = '\n' ∨ first = '|' ∨ first = '#') :
    blockLines text = Line.cut 0 [] text := by
  have has := hasLines_cut 0 fed
  have kept : withoutMetadata (Line.cut 0 [] text) = Line.cut 0 [] text := by
    generalize Line.cut 0 [] text = lines at has ⊢
    cases lines with
    | nil =>
        rfl
    | cons line rest =>
        obtain ⟨-, -, below, parts, -⟩ := has.uncons
        have noMark : metadataMark? line = none := by
          apply metadataMark?_eq_none
          intro first isFirst
          apply starts first
          simp [parts, List.head?_append, isFirst]
        rw [withoutMetadata, noMark]
        rfl
  unfold blockLines
  split
  · rename_i rest
    rcases starts '\ufeff' rfl with isFeed | isPipe | isHash
    · exact absurd isFeed (by decide)
    · exact absurd isPipe (by decide)
    · exact absurd isHash (by decide)
  · exact kept

theorem hasLines_feeds (start count : Nat) :
    ∃ lines, HasLines start (List.replicate count '\n') lines ∧
      ∀ line ∈ lines, line.content = [] := by
  induction count generalizing start with
  | zero =>
      exact ⟨[], .nil start, by simp⟩
  | succ count inductionHypothesis =>
      obtain ⟨lines, has, empty⟩ := inductionHypothesis (start + 0 + 1)
      refine ⟨_, .line start isPlain_nil (.inl rfl) has, ?_⟩
      simpa using empty

theorem startsLine_feeds (count : Nat) :
    StartsLine (List.replicate count '\n') := by
  cases count with
  | zero => exact .inl rfl
  | succ count => exact .inr (by simp [List.getLast?_replicate])

/-- The headings of a text of parts below empty lines. -/
theorem textSites_textOf (count : Nat) {parts : List Part}
    (closed : AreClosed parts) :
    returnsFed (List.replicate count '\n' ++ textOf parts) = true ∧
      (textSites (List.replicate count '\n' ++ textOf parts)).map
          (Site.heading (List.replicate count '\n' ++ textOf parts)) =
        headingsAt count parts ∧
      ∀ site ∈ textSites (List.replicate count '\n' ++ textOf parts),
        site.following.containers = [] ∧ site.needsEnd = false := by
  obtain ⟨blanks, hasBlanks, empty⟩ := hasLines_feeds 0 count
  have flatBlanks (line : Line) (member : line ∈ blanks) :
      IsFlatLine line.content :=
    .inl (empty line member)
  obtain ⟨lines, hasParts, headings_eq, flat⟩ :=
    sites_textOf (OpenBlocks.isFlat_initial.after flatBlanks)
      (startsLine_feeds count) closed
  have has :=
    hasBlanks.append (startsLine_feeds count) (by rwa [Nat.zero_add])
  have starts (first : Char)
      (isFirst : (List.replicate count '\n' ++ textOf parts).head? =
        some first) :
      first = '\n' ∨ first = '|' ∨ first = '#' := by
    cases count with
    | succ count =>
        rw [List.replicate_succ, List.cons_append, List.head?_cons,
          Option.some.injEq] at isFirst
        exact .inl isFirst.symm
    | zero =>
        cases parts with
        | nil => cases isFirst
        | cons part rest =>
            rw [List.replicate_zero, List.nil_append, head?_textOf,
              Option.some.injEq] at isFirst
            exact .inr (.inr isFirst.symm)
  have sites_eq :
      textSites (List.replicate count '\n' ++ textOf parts) =
        sites (OpenBlocks.initial.after blanks) none lines := by
    rw [textSites, blockLines_of_head has.isFed starts, has.cut_eq,
      sites_append, OpenBlocks.isFlat_initial.sites_eq_nil flatBlanks]
    rfl
  rw [List.length_replicate] at headings_eq
  rw [sites_eq]
  exact ⟨has.isFed, headings_eq, flat⟩

end ComponentDocs.Markdown
