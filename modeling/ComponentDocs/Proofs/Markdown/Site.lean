import ComponentDocs.Proofs.Markdown.Bounds
import ComponentDocs.Proofs.Markdown.Ending
import ComponentDocs.Proofs.Markdown.Shift

/-!
The sites of the headings of a text: the line that completes each heading and
the blocks that are open before it.
-/

namespace ComponentDocs.Markdown

/-- A heading with the line that completes it and the blocks that are open
before that line. -/
structure Site where
  before : OpenBlocks
  line : Line
  span : HeadingSpan
deriving DecidableEq

namespace Site

/-- The blocks that are open after the heading. -/
def following (site : Site) : OpenBlocks :=
  (site.before.next site.line).1

/-- Whether the heading is one only because its line has an end: it is an
underlined paragraph, or hashes without text. -/
def needsEnd (site : Site) : Bool :=
  (site.before.next site.line.unended).2.isNone

/-- The heading in its text. -/
def heading (text : Text) (site : Site) : Heading :=
  site.span.heading text

/-- The site with its place moved. -/
def shift (amount : Nat) (site : Site) : Site :=
  ⟨site.before.shift amount, site.line.shift amount,
    site.span.shift amount⟩

end Site

/-- The blocks that are open after lines. -/
def OpenBlocks.after (blocks : OpenBlocks) (lines : List Line) : OpenBlocks :=
  lines.foldl (fun blocks line => (blocks.next line).1) blocks

/-- The site on a line, if it completes a heading, before the line `next`. -/
def siteOn? (blocks : OpenBlocks) (line : Line) (next : Option Line) :
    Option Site :=
  (blocks.next line).2.map fun span =>
    ⟨blocks, line, takeMarks (blocks.next line).1.containers next span⟩

/-- The sites on lines that stand before the line `beyond`. -/
def sites (blocks : OpenBlocks) (beyond : Option Line) :
    List Line → List Site
  | [] => []
  | line :: rest =>
      (siteOn? blocks line (rest.head?.or beyond)).toList ++
        sites (blocks.next line).1 beyond rest

/-- The sites of a text. -/
def textSites (text : Text) : List Site :=
  sites .initial none (blockLines text)

theorem headingSpans_eq (blocks : OpenBlocks) (lines : List Line) :
    headingSpans blocks lines = (sites blocks none lines).map Site.span := by
  induction lines generalizing blocks with
  | nil =>
      rfl
  | cons line rest inductionHypothesis =>
      rw [headingSpans, sites, siteOn?, List.map_append,
        ← inductionHypothesis, Option.or_none]
      dsimp only
      cases (blocks.next line).2 <;> rfl

/-- The headings of a text are those of its sites. -/
theorem headings_eq (text : Text) :
    headings text =
      (textSites text).map (Site.heading text) := by
  rw [headings, headingSpans_eq, List.map_map]
  rfl

/-! ## Lists of lines -/

theorem sites_append (blocks : OpenBlocks) (beyond : Option Line)
    (lines others : List Line) :
    sites blocks beyond (lines ++ others) =
      sites blocks (others.head?.or beyond) lines ++
        sites (blocks.after lines) beyond others := by
  induction lines generalizing blocks with
  | nil =>
      rfl
  | cons line rest inductionHypothesis =>
      have sameNext :
          (rest ++ others).head?.or beyond =
            rest.head?.or (others.head?.or beyond) := by
        rw [List.head?_append, Option.or_assoc]
      rw [List.cons_append, sites, sites, inductionHypothesis, sameNext,
        List.append_assoc]
      rfl

/-- Empty lines hold no heading. -/
theorem sites_eq_nil (blocks : OpenBlocks) (beyond : Option Line)
    {lines : List Line} (empty : ∀ line ∈ lines, line.content = []) :
    sites blocks beyond lines = [] := by
  induction lines generalizing blocks with
  | nil =>
      rfl
  | cons line rest inductionHypothesis =>
      rw [sites, siteOn?,
        blocks.next_of_content_eq_nil (empty line List.mem_cons_self),
        inductionHypothesis _ fun later member =>
          empty later (List.mem_cons_of_mem _ member)]
      rfl

theorem mem_siteOn? {blocks : OpenBlocks} {line : Line} {next : Option Line}
    {site : Site} :
    site ∈ siteOn? blocks line next ↔
      ∃ span, (blocks.next line).2 = some span ∧
        site = ⟨blocks, line,
          takeMarks (blocks.next line).1.containers next span⟩ := by
  rw [siteOn?, Option.mem_def, Option.map_eq_some_iff]
  simp only [eq_comm]

/-- Around a site stand the sites of the lines before and after its own. -/
theorem sites_split {blocks : OpenBlocks} {beyond : Option Line}
    {lines : List Line} {before after : List Site} {site : Site}
    (shape : sites blocks beyond lines = before ++ site :: after) :
    ∃ first rest,
      lines = first ++ site.line :: rest ∧
        before = sites blocks (some site.line) first ∧
        site ∈ siteOn? (blocks.after first) site.line
          (rest.head?.or beyond) ∧
        after = sites site.following beyond rest := by
  -- A line before that of the site keeps the line behind it as its next one.
  induction lines generalizing blocks before with
  | nil =>
      simp [sites] at shape
  | cons line rest inductionHypothesis =>
      rw [sites] at shape
      cases found : siteOn? blocks line (rest.head?.or beyond) with
      | none =>
          rw [found, Option.toList_none, List.nil_append] at shape
          obtain ⟨first, others, parts, sitesFirst, isSite, sitesOthers⟩ :=
            inductionHypothesis shape
          refine ⟨line :: first, others, by rw [parts, List.cons_append], ?_,
            isSite, sitesOthers⟩
          have sameNext :
              rest.head?.or beyond = first.head?.or (some site.line) := by
            rw [parts]
            cases first <;> rfl
          rw [sites, ← sameNext, found, ← sitesFirst]
          rfl
      | some head =>
          rw [found, Option.toList_some, List.singleton_append] at shape
          cases before with
          | nil =>
              rw [List.nil_append, List.cons.injEq] at shape
              obtain ⟨rfl, sitesRest⟩ := shape
              obtain ⟨span, -, rfl⟩ := mem_siteOn?.mp found
              exact ⟨[], rest, rfl, rfl, found, sitesRest.symm⟩
          | cons first others =>
              rw [List.cons_append, List.cons.injEq] at shape
              obtain ⟨sameHead, sitesRest⟩ := shape
              obtain ⟨between, further, parts, sitesBetween, isSite,
                sitesFurther⟩ := inductionHypothesis sitesRest
              refine ⟨line :: between, further,
                by rw [parts, List.cons_append], ?_, isSite, sitesFurther⟩
              have sameNext :
                  rest.head?.or beyond =
                    between.head?.or (some site.line) := by
                rw [parts]
                cases between <;> rfl
              rw [sites, ← sameNext, found, ← sitesBetween, sameHead]
              rfl

theorem mem_lines_of_mem_sites {blocks : OpenBlocks} {beyond : Option Line}
    {lines : List Line} {site : Site}
    (member : site ∈ sites blocks beyond lines) : site.line ∈ lines := by
  obtain ⟨before, after, shape⟩ := List.append_of_mem member
  obtain ⟨first, rest, parts, -⟩ := sites_split shape
  rw [parts]
  exact List.mem_append_right _ List.mem_cons_self

/-! ## Moved lines -/

theorem takeMarks_shift (amount : Nat) (containers : List Container)
    (next : Option Line) (span : HeadingSpan) :
    takeMarks containers (next.map (Line.shift amount)) (span.shift amount) =
      (takeMarks containers next span).shift amount := by
  cases next with
  | none => rfl
  | some line =>
      have sameMarks :
          continuesWithMarks containers (line.shift amount) =
            continuesWithMarks containers line :=
        rfl
      rw [Option.map_some, takeMarks, takeMarks, sameMarks]
      split
      · simp only [HeadingSpan.shift, Line.shift]
        congr 1
        omega
      · rfl

theorem siteOn?_shift (amount : Nat) (blocks : OpenBlocks) (line : Line)
    (next : Option Line) :
    siteOn? (blocks.shift amount) (line.shift amount)
        (next.map (Line.shift amount)) =
      (siteOn? blocks line next).map (Site.shift amount) := by
  rw [siteOn?, siteOn?, OpenBlocks.next_shift, Option.map_map,
    Option.map_map]
  congr 1
  funext span
  have sameContainers :
      ((blocks.next line).1.shift amount).containers =
        (blocks.next line).1.containers :=
    rfl
  rw [Function.comp_apply, Function.comp_apply, sameContainers,
    takeMarks_shift]
  rfl

theorem sites_shift (amount : Nat) (blocks : OpenBlocks)
    (beyond : Option Line) (lines : List Line) :
    sites (blocks.shift amount) (beyond.map (Line.shift amount))
        (lines.map (Line.shift amount)) =
      (sites blocks beyond lines).map (Site.shift amount) := by
  induction lines generalizing blocks with
  | nil =>
      rfl
  | cons line rest inductionHypothesis =>
      have sameNext :
          (rest.map (Line.shift amount)).head?.or
              (beyond.map (Line.shift amount)) =
            (rest.head?.or beyond).map (Line.shift amount) := by
        cases rest <;> rfl
      rw [List.map_cons, sites, sites, sameNext, siteOn?_shift,
        OpenBlocks.next_shift, inductionHypothesis, List.map_append]
      cases siteOn? blocks line (rest.head?.or beyond) <;> rfl

/-! ## Places -/

@[simp]
theorem takeMarks_level (containers : List Container) (next : Option Line)
    (span : HeadingSpan) :
    (takeMarks containers next span).level = span.level := by
  unfold takeMarks
  split
  · split <;> rfl
  · rfl

@[simp]
theorem takeMarks_start (containers : List Container) (next : Option Line)
    (span : HeadingSpan) :
    (takeMarks containers next span).start = span.start := by
  unfold takeMarks
  split
  · split <;> rfl
  · rfl

@[simp]
theorem takeMarks_textStart (containers : List Container)
    (next : Option Line) (span : HeadingSpan) :
    (takeMarks containers next span).textStart = span.textStart := by
  unfold takeMarks
  split
  · split <;> rfl
  · rfl

@[simp]
theorem takeMarks_textEnd (containers : List Container) (next : Option Line)
    (span : HeadingSpan) :
    (takeMarks containers next span).textEnd = span.textEnd := by
  unfold takeMarks
  split
  · split <;> rfl
  · rfl

/-- Outside containers there are no marks to take. -/
theorem takeMarks_nil (next : Option Line) (span : HeadingSpan) :
    takeMarks [] next span = span := by
  cases next <;> rfl

theorem continuesWithMarks_of_content_eq_nil (containers : List Container)
    {line : Line} (empty : line.content = []) :
    continuesWithMarks containers line = false := by
  have stays :
      (Container.continueAll ⟨0, []⟩ containers).2.2 = ⟨0, []⟩ := by
    induction containers with
    | nil =>
        rfl
    | cons container inner inductionHypothesis =>
        cases container with
        | quote => rfl
        | item width hasContent =>
            cases hasContent with
            | false => rfl
            | true => exact inductionHypothesis
  have start : Cursor.ofLine line = ⟨0, []⟩ := by
    rw [Cursor.ofLine, empty]
  rw [continuesWithMarks, start]
  dsimp only
  rw [stays]
  rfl

/-- Where a heading ends: with its line, or after the first character of the
next line, which is not empty then. -/
theorem takeMarks_finish (containers : List Container) (next : Option Line)
    (span : HeadingSpan) :
    (takeMarks containers next span).finish = span.finish ∨
      ∃ line, next = some line ∧ line.content ≠ [] ∧
        (takeMarks containers next span).finish = line.start + 1 := by
  cases next with
  | none => exact .inl rfl
  | some line =>
      cases marks : continuesWithMarks containers line with
      | false =>
          left
          simp [takeMarks, marks]
      | true =>
          right
          refine ⟨line, rfl, ?_, by simp [takeMarks, marks]⟩
          intro empty
          rw [continuesWithMarks_of_content_eq_nil containers empty] at marks
          cases marks

/-- How a site stands below an offset and before the line `next`: it leaves no
paragraph open, and ends with its line but for the marks it takes. -/
structure Site.Stands (low : Nat) (next : Option Line) (site : Site) :
    Prop where
  leaf_eq : site.following.leaf = .none
  exists_span : ∃ span : HeadingSpan, span.EndsOn low site.line ∧
    site.span = takeMarks site.following.containers next span

theorem siteOn?_stands {blocks : OpenBlocks} {line : Line}
    {next : Option Line} {site : Site} {low : Nat}
    (found : site ∈ siteOn? blocks line next)
    (placed : blocks.Within low line.start) (below : low ≤ line.start)
    (proper : line.start < line.finish) :
    site.line = line ∧ site.following = (blocks.next line).1 ∧
      site.Stands low next := by
  obtain ⟨span, completes, rfl⟩ := mem_siteOn?.mp found
  obtain ⟨ends, isNone⟩ :=
    (OpenBlocks.next_within placed below proper).2 span completes
  exact ⟨rfl, rfl, isNone, span, ends, rfl⟩

section Places

variable {beyond : Option Line} {start stop : Nat} {lines : List Line}

/-- Every site stands on one of the lines. -/
theorem sites_stand {blocks : OpenBlocks} {low : Nat}
    (successive : Successive start stop lines)
    (placed : blocks.Within low start)
    (below : low ≤ start) :
    ∀ site ∈ sites blocks beyond lines, site.line ∈ lines ∧
      ∃ next, site.Stands low next ∧
        ∀ line, next = some line → line ∈ lines ∨ beyond = some line := by
  induction lines generalizing blocks start with
  | nil =>
      simp [sites]
  | cons line rest inductionHypothesis =>
      obtain ⟨after, proper, under⟩ := successive
      intro site member
      rw [sites, List.mem_append, Option.mem_toList] at member
      rcases member with found | member
      · obtain ⟨sameLine, -, stands⟩ :=
          siteOn?_stands found (placed.mono after) (below.trans after) proper
        refine ⟨by simp [sameLine], _, stands, ?_⟩
        intro next isNext
        cases rest with
        | nil => exact .inr isNext
        | cons head tail =>
            left
            injection isNext with sameNext
            simp [← sameNext]
      · have placedRest : (blocks.next line).1.Within low line.finish :=
          (OpenBlocks.next_within (placed.mono after) (below.trans after)
            proper).1.mono
            (Nat.le_add_right _ _)
        obtain ⟨onLine, next, stands, known⟩ :=
          inductionHypothesis under placedRest (by omega) site member
        exact ⟨List.mem_cons_of_mem _ onLine, next, stands,
          fun later isNext => (known later isNext).imp_left
            (List.mem_cons_of_mem _)⟩

/-- Where a site starts and ends. -/
theorem sites_bounds {blocks : OpenBlocks} {low : Nat}
    (successive : Successive start stop lines)
    (placed : blocks.Within low start)
    (below : low ≤ start) {site : Site}
    (member : site ∈ sites blocks beyond lines) :
    low ≤ site.span.start ∧ site.span.start < site.line.finish ∧
      start ≤ site.line.start ∧ site.line.start < site.line.finish ∧
        site.line.finish ≤ stop := by
  obtain ⟨onLine, next, ⟨-, span, ends, sameSpan⟩, -⟩ :=
    sites_stand successive placed below site member
  rw [sameSpan, takeMarks_start]
  exact ⟨ends.start_ge, ends.start_lt, successive.bounds site.line onLine⟩

/-- Headings stand one after another: each starts after the lines of those
before it. -/
theorem sites_pairwise {blocks : OpenBlocks} {low : Nat}
    (successive : Successive start stop lines)
    (placed : blocks.Within low start)
    (below : low ≤ start) :
    (sites blocks beyond lines).Pairwise fun site later =>
      site.line.finish ≤ later.span.start := by
  induction lines generalizing blocks start low with
  | nil =>
      exact .nil
  | cons line rest inductionHypothesis =>
      obtain ⟨after, proper, under⟩ := successive
      rw [sites]
      cases found : siteOn? blocks line (rest.head?.or beyond) with
      | none =>
          have placedRest : (blocks.next line).1.Within low line.finish :=
            (OpenBlocks.next_within (placed.mono after) (below.trans after)
            proper).1.mono
              (Nat.le_add_right _ _)
          exact inductionHypothesis under placedRest (by omega)
      | some site =>
          obtain ⟨sameLine, sameFollowing, stands⟩ :=
            siteOn?_stands found (placed.mono after) (below.trans after) proper
          -- No paragraph is open after a heading.
          have fresh :
              (blocks.next line).1.Within line.finish line.finish :=
            OpenBlocks.within_of_ne_paragraph
              (by simp [← sameFollowing, stands.leaf_eq]) _ _
          refine .cons ?_
            (inductionHypothesis under fresh (Nat.le_refl _))
          intro later member
          rw [sameLine]
          exact (sites_bounds under fresh (Nat.le_refl _) member).1

end Places

end ComponentDocs.Markdown
