import ComponentDocs.Page.Section
import ComponentDocs.Proofs.Markdown.Range
import ComponentDocs.Proofs.Text.Trim

/-!
A section inside a section, found in one reading of the page. The page is read
in two stages, the inner section in the text of the outer one; both give the
same text where nothing before the outer section counts in it.
-/

namespace ComponentDocs.Page

open ComponentDocs.Markdown

/-! ## One reading -/

/-- The text of the section `inner` inside the section `outer` by the headings
of the whole page: under the first heading named `inner` in the section, up to
the next heading of the same or a higher level or the end of the section. -/
def sectionOnce (document outer inner : Text) : Text :=
  match headingFrom? outer (headings document) with
  | none => []
  | some (heading, following) =>
      let inside :=
        following.takeWhile fun later => heading.level < later.level
      match headingFrom? inner inside with
      | none => []
      | some (found, after) =>
          trimLineEnds <|
            slice document found.bodyStart
              (sectionEnd found.level
                (sectionEnd heading.level document.length following) after)

/-! ## Searches -/

section Search

variable {α : Type} (project : α → Heading)

/-- The first item whose heading has a name, and the items after it. -/
def firstNamed? (name : Text) : List α → Option (α × List α)
  | [] => none
  | item :: rest =>
      if isNamed name (project item) then some (item, rest)
      else firstNamed? name rest

theorem headingFrom?_map (name : Text) (items : List α) :
    headingFrom? name (items.map project) =
      (firstNamed? project name items).map fun found =>
        (project found.1, found.2.map project) := by
  induction items with
  | nil =>
      rfl
  | cons item rest inductionHypothesis =>
      rw [List.map_cons, headingFrom?, firstNamed?]
      split
      · rfl
      · exact inductionHypothesis

theorem firstNamed?_congr (other : α → Heading) (name : Text)
    (same : ∀ item, (project item).name = (other item).name)
    (items : List α) :
    firstNamed? project name items = firstNamed? other name items := by
  induction items with
  | nil =>
      rfl
  | cons item rest inductionHypothesis =>
      rw [firstNamed?, firstNamed?, inductionHypothesis, isNamed, isNamed,
        same item]

theorem firstNamed?_eq_some {name : Text} {items rest : List α} {item : α}
    (found : firstNamed? project name items = some (item, rest)) :
    ∃ before, items = before ++ item :: rest := by
  induction items with
  | nil =>
      cases found
  | cons head tail inductionHypothesis =>
      rw [firstNamed?] at found
      split at found
      · injection found with same
        injection same with sameItem sameRest
        exact ⟨[], by rw [sameItem, sameRest]; rfl⟩
      · obtain ⟨before, parts⟩ := inductionHypothesis found
        exact ⟨head :: before, by rw [parts, List.cons_append]⟩

/-- A name that the items at the start do not have is searched for among the
others. -/
theorem firstNamed?_append (name : Text) (items others : List α) :
    firstNamed? project name (items ++ others) =
      ((firstNamed? project name items).map fun found =>
        (found.1, found.2 ++ others)).or
          (firstNamed? project name others) := by
  induction items with
  | nil =>
      rfl
  | cons item rest inductionHypothesis =>
      rw [List.cons_append, firstNamed?, firstNamed?]
      split
      · rfl
      · exact inductionHypothesis

theorem sectionEnd_map (level stop : Nat) (items : List α) :
    sectionEnd level stop (items.map project) =
      ((items.find? fun item => (project item).level ≤ level).map fun item =>
        (project item).start).getD stop := by
  have sameSearch :
      (items.map project).find? (fun heading => heading.level ≤ level) =
        (items.find? fun item => (project item).level ≤ level).map
          project := by
    rw [List.find?_map]
    rfl
  rw [sectionEnd, sameSearch]
  cases items.find? fun item => (project item).level ≤ level <;> rfl

end Search

/-! ## Pieces -/

theorem trimLineEnds_append (text : Text) {ends : Text}
    (areEnds : AreEnds ends) :
    trimLineEnds (text ++ ends) = trimLineEnds text := by
  apply Text.dropEndWhile_append
  intro character member
  rcases areEnds character member with rfl | rfl <;> rfl

theorem exists_trimLineEnds (text : Text) :
    ∃ ends : Text, text = trimLineEnds text ++ ends ∧ AreEnds ends ∧
      EndsVisibly (trimLineEnds text) := by
  obtain ⟨ends, parts, passes⟩ :=
    Text.exists_dropEndWhile_append isLineEnd text
  refine ⟨ends, parts, ?_, ?_⟩
  · intro character member
    simpa [isLineEnd] using passes character member
  · intro last isLast
    have fails := Text.getLast?_dropEndWhile isLast
    simpa [isLineEnd] using fails

section Piece

variable {before text ends after : Text}

theorem slice_inside {start stop : Nat} (start_ge : before.length ≤ start)
    (stop_ge : before.length ≤ stop)
    (stop_le : stop ≤ before.length + text.length) :
    slice text (min start (before.length + text.length) - before.length)
        (stop - before.length) =
      slice (before ++ text ++ (ends ++ after)) start stop := by
  obtain ⟨offset, rfl⟩ := Nat.exists_eq_add_of_le start_ge
  obtain ⟨width, rfl⟩ := Nat.exists_eq_add_of_le stop_ge
  have width_le : width ≤ text.length := by
    omega
  rw [slice, slice, List.append_assoc, List.take_length_add_append,
    List.drop_length_add_append, List.take_append_of_le_length width_le,
    Nat.add_sub_cancel_left]
  by_cases early : offset ≤ text.length
  · rw [Nat.min_eq_left (by omega), Nat.add_sub_cancel_left]
  · have short : (text.take width).length ≤ text.length := by
      rw [List.length_take]
      omega
    rw [Nat.min_eq_right (by omega), Nat.add_sub_cancel_left,
      List.drop_eq_nil_of_le short, List.drop_eq_nil_of_le (by omega)]

theorem trimLineEnds_slice (text after : Text) (areEnds : AreEnds ends)
    {start : Nat}
    (start_ge : before.length ≤ start) :
    trimLineEnds
        (slice text
          (min start (before.length + text.length) - before.length)
          text.length) =
      trimLineEnds
        (slice (before ++ text ++ (ends ++ after)) start
          (before.length + text.length + ends.length)) := by
  obtain ⟨offset, rfl⟩ := Nat.exists_eq_add_of_le start_ge
  have whole :
      slice (before ++ text ++ (ends ++ after)) (before.length + offset)
          (before.length + text.length + ends.length) =
        text.drop offset ++ ends.drop (offset - text.length) := by
    have taken :
        (before ++ text ++ (ends ++ after)).take
            (before.length + text.length + ends.length) =
          before ++ (text ++ ends) := by
      rw [← List.append_assoc, ← List.append_assoc]
      apply List.take_left'
      simp only [List.length_append]
    rw [slice, taken, List.drop_length_add_append, List.drop_append]
  have endsLeft : AreEnds (ends.drop (offset - text.length)) :=
    fun character member => areEnds character (List.mem_of_mem_drop member)
  rw [whole, trimLineEnds_append _ endsLeft, slice, List.take_length]
  by_cases early : offset ≤ text.length
  · rw [Nat.min_eq_left (by omega), Nat.add_sub_cancel_left]
  · rw [Nat.min_eq_right (by omega), Nat.add_sub_cancel_left,
      List.drop_length, List.drop_eq_nil_of_le (by omega)]

/-- A section of the piece is the section of the text, when the heading that
ends it there is one of the piece. -/
theorem trimLineEnds_slice_inside (areEnds : AreEnds ends) {site : Site}
    {following : List Site} {lost : Option Site}
    (isInside : ∀ later ∈ site :: following,
      (later.heading (before ++ text ++ (ends ++ after))).IsInside
        before.length text.length)
    (notLost : ∀ last,
      (following ++ lost.toList).find? (fun later : Site =>
          later.span.level ≤ site.span.level) = some last →
        lost ≠ some last) :
    trimLineEnds
        (slice text
          ((site.heading (before ++ text ++ (ends ++ after))).inside
            before.length text.length).bodyStart
          (sectionEnd site.span.level text.length
            (following.map fun later =>
              (later.heading (before ++ text ++ (ends ++ after))).inside
                before.length text.length))) =
      trimLineEnds
        (slice (before ++ text ++ (ends ++ after))
          (site.heading (before ++ text ++ (ends ++ after))).bodyStart
          (sectionEnd site.span.level
            (before.length + text.length + ends.length)
            ((following ++ lost.toList).map
              (Site.heading (before ++ text ++ (ends ++ after)))))) := by
  have start_ge := (isInside site List.mem_cons_self).bodyStart_ge
  rw [List.find?_append] at notLost
  rw [sectionEnd_map, sectionEnd_map, List.find?_append]
  change trimLineEnds (slice text _
      (((following.find? fun later : Site =>
          later.span.level ≤ site.span.level).map fun later =>
        (later.heading (before ++ text ++ (ends ++ after))).start -
          before.length).getD text.length)) =
    trimLineEnds (slice _ _
      ((((following.find? fun later : Site =>
          later.span.level ≤ site.span.level).or
        (lost.toList.find? fun later : Site =>
          later.span.level ≤ site.span.level)).map _).getD _))
  cases closing : following.find? fun later : Site =>
      later.span.level ≤ site.span.level with
  | some later =>
      have laterInside := isInside later
        (List.mem_cons_of_mem _ (List.mem_of_find?_eq_some closing))
      exact congrArg trimLineEnds
        (slice_inside start_ge laterInside.start_ge laterInside.start_le)
  | none =>
      rw [closing, Option.none_or] at notLost
      have noLost :
          lost.toList.find? (fun later : Site =>
            later.span.level ≤ site.span.level) = none := by
        cases lost with
        | none => rfl
        | some last =>
            rw [Option.toList_some, List.find?_singleton] at notLost ⊢
            split
            · rename_i closes
              exact absurd rfl (notLost last (if_pos closes))
            · rfl
      rw [noLost]
      exact trimLineEnds_slice text after areEnds start_ge

/-- Behind the piece only its line ends are left. -/
theorem trimLineEnds_slice_eq_nil (areEnds : AreEnds ends) {start : Nat}
    (behind : before.length + text.length ≤ start) :
    trimLineEnds
        (slice (before ++ text ++ (ends ++ after)) start
          (before.length + text.length + ends.length)) = [] := by
  have same := trimLineEnds_slice text after areEnds
    ((Nat.le_add_right _ _).trans behind)
  rw [← same, Nat.min_eq_right behind, Nat.add_sub_cancel_left, slice,
    List.take_length, List.drop_length]
  rfl

/-- Reading a section in a piece of a text gives what the headings of the text
give there, when the heading that ends the section is among those of the
piece. -/
theorem block?_piece (areEnds : AreEnds ends) {inner : Text}
    {kept : List Site} {lost : Option Site}
    (sameHeadings : headings text = kept.map fun site =>
      (site.heading (before ++ text ++ (ends ++ after))).inside
        before.length text.length)
    (isInside : ∀ site ∈ kept,
      (site.heading (before ++ text ++ (ends ++ after))).IsInside
        before.length text.length)
    (late : ∀ site, lost = some site →
      before.length + text.length ≤
        (site.heading (before ++ text ++ (ends ++ after))).bodyStart)
    (closed : ∀ found following last,
      firstNamed? (Site.heading (before ++ text ++ (ends ++ after))) inner
          (kept ++ lost.toList) = some (found, following) →
        following.find? (fun later : Site =>
            later.span.level ≤ found.span.level) = some last →
          lost ≠ some last) :
    (block? text inner).getD [] =
      match headingFrom? inner ((kept ++ lost.toList).map
          (Site.heading (before ++ text ++ (ends ++ after)))) with
      | none => []
      | some (found, following) =>
          trimLineEnds <|
            slice (before ++ text ++ (ends ++ after)) found.bodyStart
              (sectionEnd found.level
                (before.length + text.length + ends.length) following) := by
  have sameNames := firstNamed?_congr
    (fun site : Site =>
      (site.heading (before ++ text ++ (ends ++ after))).inside
        before.length text.length)
    (Site.heading (before ++ text ++ (ends ++ after)))
    inner (fun _ => rfl) kept
  rw [block?, sameHeadings, headingFrom?_map, headingFrom?_map, sameNames]
  rw [firstNamed?_append] at closed ⊢
  cases search : firstNamed?
      (Site.heading (before ++ text ++ (ends ++ after))) inner kept with
  | none =>
      rw [Option.map_none, Option.map_none, Option.none_or]
      cases lost with
      | none => rfl
      | some last =>
          -- The lost heading may have the name, but its section is empty.
          have nothing : trimLineEnds
              (slice (before ++ text ++ (ends ++ after))
                (last.heading (before ++ text ++ (ends ++ after))).bodyStart
                (before.length + text.length + ends.length)) = [] :=
            trimLineEnds_slice_eq_nil areEnds (late last rfl)
          rw [Option.toList_some, firstNamed?]
          cases isNamed inner
              (last.heading (before ++ text ++ (ends ++ after))) with
          | false => rfl
          | true => exact nothing.symm
  | some found =>
      obtain ⟨site, following⟩ := found
      obtain ⟨front, parts⟩ := firstNamed?_eq_some _ search
      rw [search, Option.map_some, Option.some_or] at closed
      exact trimLineEnds_slice_inside areEnds
        (fun later isLater => isInside later
          (by rw [parts]; exact List.mem_append_right _ isLater))
        fun last => closed site (following ++ lost.toList) last rfl

end Piece

/-! ## Two stages -/

/-- The sites in the section of a site. -/
def sitesInside (site : Site) (following : List Site) : List Site :=
  following.takeWhile fun later => site.span.level < later.span.level

/-- The offset where the section of a site ends. -/
def siteEnd (document : Text) (site : Site) (following : List Site) : Nat :=
  sectionEnd site.span.level document.length
    (following.map (Site.heading document))

/-- The headings of a section are those on the lines of its text. -/
theorem exists_range (site : Site) {before below : Text}
    {following : List Site} (starts : StartsLine before)
    (fed : returnsFed below = true)
    (following_eq :
      following = sites .initial none (Line.cut before.length [] below)) :
    ∃ (range rest : Text) (beyond : Option Line),
      below = range ++ rest ∧
        siteEnd (before ++ below) site following =
          before.length + range.length ∧
        returnsFed range = true ∧
        sitesInside site following =
          sites .initial beyond (Line.cut before.length [] range) ∧
        ∀ line, beyond = some line →
          before.length + range.length ≤ line.start := by
  rw [siteEnd, sectionEnd_map, sitesInside]
  change ∃ (range rest : Text) (beyond : Option Line),
    below = range ++ rest ∧
      ((following.find? fun later : Site =>
        later.span.level ≤ site.span.level).map fun later : Site =>
          (later.heading (before ++ below)).start).getD
            (before ++ below).length = _ ∧ _
  -- The section goes down to the end of the text, or to the line of the
  -- heading that closes it.
  cases closing : following.find? fun later : Site =>
      later.span.level ≤ site.span.level with
  | none =>
      refine ⟨below, [], none, (List.append_nil below).symm,
        List.length_append, fed, ?_, by simp⟩
      rw [← following_eq]
      apply List.takeWhile_eq_self_iff.mpr
      intro later member
      simpa using List.find?_eq_none.mp closing later member
  | some last =>
      obtain ⟨closes, first, later, shape, stays⟩ :=
        List.find?_eq_some_iff_append.mp closing
      obtain ⟨range, rest, beyond, parts, place, fedRange, first_eq,
        behind⟩ := sites_before starts fed (following_eq ▸ shape)
      refine ⟨range, rest, beyond, parts, place, fedRange, ?_, behind⟩
      have inside :
          ∀ earlier ∈ first,
            decide (site.span.level < earlier.span.level) = true := by
        intro earlier member
        simpa using stays earlier member
      have outside :
          decide (site.span.level < last.span.level) = false := by
        simpa using closes
      rw [shape, List.takeWhile_append_of_pos inside,
        List.takeWhile_cons_of_neg (by simp [outside]), List.append_nil]
      exact first_eq

/-- Reading a section in the text of lines gives what the headings on these
lines give in the whole text. -/
theorem block?_range {before range rest inner : Text}
    (starts : StartsLine before) (fed : returnsFed range = true)
    {beyond : Option Line}
    (behind : ∀ line, beyond = some line →
      before.length + range.length ≤ line.start)
    (plain : blockLines (trimLineEnds range) =
      Line.cut 0 [] (trimLineEnds range))
    (closed : ∀ found later last,
      firstNamed? (Site.heading (before ++ (range ++ rest))) inner
          (sites .initial beyond (Line.cut before.length [] range)) =
            some (found, later) →
        later.find? (fun last : Site =>
            last.span.level ≤ found.span.level) = some last →
          last.needsEnd = true →
            trimLineEnds (slice (before ++ (range ++ rest))
              last.line.finish (before.length + range.length)) ≠ []) :
    (block? (trimLineEnds range) inner).getD [] =
      match headingFrom? inner
          ((sites .initial beyond (Line.cut before.length [] range)).map
            (Site.heading (before ++ (range ++ rest)))) with
      | none => []
      | some (found, later) =>
          trimLineEnds <|
            slice (before ++ (range ++ rest)) found.bodyStart
              (sectionEnd found.level (before.length + range.length)
                later) := by
  -- The second stage reads the lines of the section without the line ends
  -- that are dropped.
  obtain ⟨ends, parts, areEnds, visible⟩ := exists_trimLineEnds range
  generalize trimLineEnds range = text at parts visible plain ⊢
  subst parts
  have behindText (line : Line) (isNext : beyond = some line) :
      before.length + text.length ≤ line.start := by
    have late := behind line isNext
    rw [List.length_append] at late
    omega
  have whole :
      before ++ (text ++ ends ++ rest) =
        before ++ text ++ (ends ++ rest) := by
    simp only [List.append_assoc]
  have stop_eq :
      before.length + (text ++ ends).length =
        before.length + text.length + ends.length := by
    rw [List.length_append, Nat.add_assoc]
  rw [whole, stop_eq] at closed
  rw [whole, stop_eq]
  obtain ⟨kept, lost, sites_eq, sameHeadings, isInside, needs⟩ :=
    headings_piece rest starts fed visible areEnds plain
      behindText
  rw [sites_eq] at closed ⊢
  apply block?_piece areEnds sameHeadings isInside
  · intro site isLost
    have spanLate := (needs site isLost).span_finish_ge
    have bodyLate := le_nextLineStart (before ++ text ++ (ends ++ rest))
      site.span.finish
    simp only [List.length_append] at bodyLate
    simp only [Site.heading, HeadingSpan.heading]
    omega
  · intro found later last isFound closing isLost
    obtain ⟨needsEnd, lineLate, -⟩ := needs last isLost
    exact closed found later last isFound closing needsEnd
      (trimLineEnds_slice_eq_nil areEnds lineLate)

theorem block?_of_site {document name : Text} {site : Site}
    {following : List Site}
    (search : firstNamed? (Site.heading document) name (textSites document) =
      some (site, following)) :
    block? document name =
      some (trimLineEnds <| slice document (site.heading document).bodyStart <|
        siteEnd document site following) := by
  rw [block?, headings_eq, headingFrom?_map, search]
  rfl

/-- The section of a heading in no list and no quote, read in two stages, is
what the headings of the page inside it give. -/
theorem sectionText_of_site {document outer inner : Text} {site : Site}
    {following : List Site} (fed : returnsFed document = true)
    (search : firstNamed? (Site.heading document) outer (textSites document) =
      some (site, following))
    (flat : site.following.containers = [])
    (plain : ∀ block, block? document outer = some block →
      blockLines block = Line.cut 0 [] block)
    (closed : ∀ found later last,
      firstNamed? (Site.heading document) inner
          (sitesInside site following) = some (found, later) →
        later.find? (fun last : Site =>
            last.span.level ≤ found.span.level) = some last →
          last.needsEnd = true →
            trimLineEnds (slice document last.line.finish
              (siteEnd document site following)) ≠ []) :
    sectionText document outer inner =
      match headingFrom? inner
          ((sitesInside site following).map (Site.heading document)) with
      | none => []
      | some (found, later) =>
          trimLineEnds <| slice document found.bodyStart <|
            sectionEnd found.level (siteEnd document site following)
              later := by
  have blockSome := block?_of_site search
  have blockPlain := plain _ blockSome
  rw [sectionText, blockSome]
  obtain ⟨first, shape⟩ := firstNamed?_eq_some _ search
  obtain ⟨before, below, rfl, starts, bodyStart_eq, fedBelow,
    following_eq⟩ := textSites_after fed shape flat
  rcases starts with starts | rfl
  · obtain ⟨range, rest, beyond, rfl, end_eq, fedRange, sites_eq, behind⟩ :=
      exists_range site starts fedBelow following_eq
    have range_eq :
        slice (before ++ (range ++ rest)) before.length
            (before.length + range.length) = range := by
      rw [slice, List.take_length_add_append, List.take_left,
        List.drop_left]
    rw [bodyStart_eq, end_eq, range_eq] at blockPlain
    rw [end_eq, sites_eq] at closed
    rw [bodyStart_eq, end_eq, range_eq, sites_eq]
    exact block?_range starts fedRange behind blockPlain closed
  · -- Nothing stands below a heading at the end of the page.
    have nothing (stop : Nat) :
        slice (before ++ []) before.length stop = [] := by
      rw [slice, List.append_nil]
      exact List.drop_eq_nil_of_le (List.length_take_le' _ _)
    have noFollowing : following = [] := following_eq
    rw [bodyStart_eq, nothing, noFollowing]
    rfl

/-! ## Both readings -/

/-- Whether the heading of the section `outer` stands in no list and no
quote. -/
def opensFlat (document outer : Text) : Bool :=
  (firstNamed? (Site.heading document) outer (textSites document)).all
    fun found => found.1.following.containers.isEmpty

/-- Whether the text of the section `outer` has neither a byte order mark nor
metadata at its start. -/
def opensPlainly (document outer : Text) : Bool :=
  (block? document outer).all fun block =>
    blockLines block == Line.cut 0 [] block

/-- Whether the heading that ends the section `inner` inside the section
`outer` is one without the line ends at the end of that section. -/
def closesInside (document outer inner : Text) : Bool :=
  (firstNamed? (Site.heading document) outer (textSites document)).all
    fun (site, following) =>
      (firstNamed? (Site.heading document) inner
        (sitesInside site following)).all fun (found, later) =>
          (later.find? fun last =>
            last.span.level ≤ found.span.level).all fun last =>
              !last.needsEnd ||
                !(trimLineEnds <| slice document last.line.finish <|
                  siteEnd document site following).isEmpty

/-- A section inside a section that is read in two stages is the section that
the headings of the whole page give, where every carriage return stands before
a line feed, the outer section opens in no list or quote and its text with
neither a byte order mark nor metadata, and the heading that ends the inner
section does not need a line end that is dropped. -/
theorem sectionText_eq_sectionOnce {document outer inner : Text}
    (fed : returnsFed document = true)
    (flat : opensFlat document outer = true)
    (plain : opensPlainly document outer = true)
    (closed : closesInside document outer inner = true) :
    sectionText document outer inner = sectionOnce document outer inner := by
  cases search :
      firstNamed? (Site.heading document) outer (textSites document) with
  | none =>
      rw [sectionText, sectionOnce, block?, headings_eq, headingFrom?_map,
        search]
      rfl
  | some found =>
      obtain ⟨site, following⟩ := found
      rw [opensFlat, search] at flat
      rw [closesInside, search] at closed
      have isFlat : site.following.containers = [] := by
        simpa using flat
      have isPlain (block : Text)
          (isBlock : block? document outer = some block) :
          blockLines block = Line.cut 0 [] block := by
        rw [opensPlainly, isBlock] at plain
        simpa using plain
      have insideMap :
          (following.map (Site.heading document)).takeWhile
              (fun later => (site.heading document).level < later.level) =
            (sitesInside site following).map (Site.heading document) :=
        List.takeWhile_map
      rw [sectionOnce, headings_eq, headingFrom?_map, search]
      change _ =
        match headingFrom? inner
            ((following.map (Site.heading document)).takeWhile fun later =>
              (site.heading document).level < later.level) with
        | none => []
        | some (found, after) =>
            trimLineEnds <| slice document found.bodyStart <|
              sectionEnd found.level (siteEnd document site following) after
      rw [insideMap]
      apply sectionText_of_site fed search isFlat isPlain
      intro found later last isFound closing needsEnd nothing
      rw [Option.all_some] at closed
      dsimp only at closed
      rw [isFound, Option.all_some] at closed
      dsimp only at closed
      rw [closing, Option.all_some, needsEnd, nothing] at closed
      exact absurd closed (by decide)

/-! ## Pages of both kinds -/

def apiName : Text := "API".toList

def attributesName : Text := "Attributes".toList

/-- A page with two sections inside another. -/
def guidePage : Text :=
  Text.join ['\n'] <|
    ["## API", "", "### Attributes", "", "rows", "", "### Events", "",
      "more", "", "## FAQ", ""].map String.toList

theorem guidePage_attributes :
    sectionText guidePage apiName attributesName =
        sectionOnce guidePage apiName attributesName ∧
      sectionOnce guidePage apiName attributesName = "\nrows".toList :=
  ⟨sectionText_eq_sectionOnce (by decide +kernel) (by decide +kernel)
    (by decide +kernel) (by decide +kernel), by decide +kernel⟩

/-- The section ends with an underlined heading, which loses its line end. -/
def underlinedPage : Text :=
  Text.join ['\n'] <|
    ["# API", "## Attributes", "rows", "", "Notes", "---", "# FAQ", ""].map
      String.toList

/-- The section opens in a list, without which its text is indented code. -/
def listPage : Text :=
  Text.join ['\n'] <|
    ["1. 1. ## API", "", "      ### Attributes", "", "      rows", ""].map
      String.toList

/-- The text of the section starts like metadata. -/
def metadataPage : Text :=
  Text.join ['\n'] <|
    ["# API", "---", "note", "## Attributes", "rows", "", "---", "more",
      ""].map String.toList

/-- The heading of the section ends in a carriage return. -/
def returnPage : Text :=
  Text.join ['\n'] <|
    ["## API\r```", "rows", "### Attributes", "more", "```", ""].map
      String.toList

/-- None of the conditions for the two readings to agree can be left out. -/
theorem sectionText_ne_sectionOnce :
    sectionText underlinedPage apiName attributesName ≠
        sectionOnce underlinedPage apiName attributesName ∧
      sectionText listPage apiName attributesName ≠
        sectionOnce listPage apiName attributesName ∧
      sectionText metadataPage apiName attributesName ≠
        sectionOnce metadataPage apiName attributesName ∧
      sectionText returnPage apiName attributesName ≠
        sectionOnce returnPage apiName attributesName := by
  decide +kernel

end ComponentDocs.Page
