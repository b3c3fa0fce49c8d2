import ComponentDocs.Proofs.Markdown.Part
import ComponentDocs.Proofs.Page.Section

/-!
The sections of a text written in parts: each section inside the first part is
what is written below its heading.
-/

namespace ComponentDocs.Page

open ComponentDocs.Markdown

/-! ## Search -/

theorem isNamed_self {heading : Heading} {name : Text}
    (same : heading.name = name) (trimmed : Text.trim name = name) :
    isNamed name heading = true := by
  rw [isNamed, same, trimmed, Text.sameIgnoringCase]
  exact beq_self_eq_true _

/-- Parts of other names are passed over. -/
theorem headingFrom?_headingsAt {start : Nat} {front back : List Part}
    {part : Part}
    (others : ∀ other ∈ front,
      Text.sameIgnoringCase other.name part.name = false) :
    headingFrom? part.name (headingsAt start (front ++ part :: back)) =
      some (part.headingAt (start + (textOf front).length),
        headingsAt (start + (textOf front).length + part.text.length)
          back) := by
  induction front generalizing start with
  | nil =>
      have found :
          isNamed part.name (part.headingAt start) = true :=
        isNamed_self rfl part.named.trimmed
      rw [List.nil_append, headingsAt, headingFrom?, if_pos found]
      rfl
  | cons first rest inductionHypothesis =>
      have passed : ¬ isNamed part.name (first.headingAt start) = true := by
        have different := others first List.mem_cons_self
        rw [isNamed, part.named.trimmed]
        simpa [Part.headingAt] using different
      have length_eq :
          start + (textOf (first :: rest)).length =
            start + first.text.length + (textOf rest).length := by
        simp [textOf]
        omega
      rw [List.cons_append, headingsAt, headingFrom?, if_neg passed,
        inductionHypothesis fun other member =>
          others other (List.mem_cons_of_mem _ member),
        length_eq]

theorem level_of_mem_headingsAt {start : Nat} {parts : List Part}
    {heading : Heading} (member : heading ∈ headingsAt start parts) :
    ∃ part ∈ parts, heading.level = part.level := by
  induction parts generalizing start with
  | nil =>
      cases member
  | cons part rest inductionHypothesis =>
      rcases List.mem_cons.mp member with rfl | member
      · exact ⟨part, List.mem_cons_self, rfl⟩
      · obtain ⟨other, otherMember, same⟩ := inductionHypothesis member
        exact ⟨other, List.mem_cons_of_mem _ otherMember, same⟩

/-- A section ends where the part after it starts. -/
theorem sectionEnd_headingsAt {level start : Nat} {parts : List Part}
    (ended : ∀ part ∈ parts, part.level ≤ level) :
    sectionEnd level (start + (textOf parts).length)
      (headingsAt start parts) = start := by
  cases parts with
  | nil => rfl
  | cons part rest =>
      have closes : (part.headingAt start).level ≤ level :=
        ended part List.mem_cons_self
      rw [headingsAt, sectionEnd,
        List.find?_cons_of_pos (by simpa using closes)]
      rfl

/-! ## Sections of parts -/

/-- Line ends at the end of a text do not tell whether its lines count. -/
theorem blockLines_trimLineEnds {text : Text} (fed : returnsFed text = true)
    (starts : ∀ first, text.head? = some first →
      first = '\n' ∨ first = '|' ∨ first = '#') :
    blockLines (trimLineEnds text) = Line.cut 0 [] (trimLineEnds text) := by
  obtain ⟨ends, parts, -, visible⟩ := exists_trimLineEnds text
  have closed : (trimLineEnds text).getLast? ≠ some '\r' := fun isLast =>
    (visible '\r' isLast).2 rfl
  rw [parts, returnsFed_append _ closed, Bool.and_eq_true] at fed
  apply blockLines_of_head fed.1
  intro first isFirst
  apply starts first
  rw [parts, List.head?_append, isFirst, Option.some_or]

theorem head?_below {part : Part} {others : List Part} {first : Char}
    (starts : (part.content ++ textOf others).head? = some first) :
    first = '\n' ∨ first = '|' ∨ first = '#' := by
  rw [List.head?_append, Option.or_eq_some_iff] at starts
  rcases starts with ofContent | ⟨-, ofOthers⟩
  · exact (part.head?_content ofContent).imp_right .inl
  · cases others with
    | nil => cases ofOthers
    | cons other rest =>
        rw [head?_textOf, Option.some.injEq] at ofOthers
        exact .inr (.inr ofOthers.symm)

theorem slice_eq {document before text after : Text} {start stop : Nat}
    (parts : document = before ++ text ++ after)
    (start_eq : start = before.length)
    (stop_eq : stop = before.length + text.length) :
    slice document start stop = text := by
  rw [slice, parts, start_eq, stop_eq, ← List.length_append, List.take_left,
    List.drop_left]

section Parts

variable (count : Nat) {outer part : Part} {inner front back : List Part}

/-- The first part is the section of its heading, and the headings inside it
are those of the other parts. -/
theorem exists_outer_site (closed : AreClosed (outer :: inner))
    (deeper : ∀ other ∈ inner, outer.level < other.level) {document : Text}
    (written :
      document = List.replicate count '\n' ++ textOf (outer :: inner)) :
    ∃ site following,
      firstNamed? (Site.heading document) outer.name (textSites document) =
        some (site, following) ∧
      site.heading document = outer.headingAt count ∧
      site.following.containers = [] ∧
      sitesInside site following = following ∧
      siteEnd document site following = document.length ∧
      following.map (Site.heading document) =
        headingsAt (count + outer.text.length) inner ∧
      ∀ later ∈ following, later.needsEnd = false := by
  obtain ⟨-, headings_eq, flat⟩ := textSites_textOf count closed
  rw [← written] at headings_eq flat
  cases shape : textSites document with
  | nil =>
      rw [shape] at headings_eq
      cases headings_eq
  | cons site following =>
      rw [shape, List.map_cons, headingsAt, List.cons.injEq] at headings_eq
      obtain ⟨heading_eq, following_eq⟩ := headings_eq
      rw [shape] at flat
      have level_eq : site.span.level = outer.level :=
        congrArg Heading.level heading_eq
      have named : isNamed outer.name (site.heading document) = true := by
        rw [heading_eq]
        exact isNamed_self rfl outer.named.trimmed
      have isDeeper (later : Site) (member : later ∈ following) :
          site.span.level < (later.heading document).level := by
        have heading_mem :
            later.heading document ∈ following.map (Site.heading document) :=
          List.mem_map_of_mem member
        rw [following_eq] at heading_mem
        obtain ⟨other, otherMember, same⟩ :=
          level_of_mem_headingsAt heading_mem
        rw [level_eq, same]
        exact deeper other otherMember
      refine ⟨site, following, ?_, heading_eq, (flat site (by simp)).1, ?_,
        ?_, following_eq, fun later member => (flat later (by simp [member])).2⟩
      · rw [firstNamed?, if_pos named]
      · apply List.takeWhile_eq_self_iff.mpr
        intro later member
        exact decide_eq_true (isDeeper later member)
      · have noneCloses :
            following.find? (fun later =>
              (later.heading document).level ≤ site.span.level) = none := by
          apply List.find?_eq_none.mpr
          intro later member
          simpa using isDeeper later member
        rw [siteEnd, sectionEnd_map, noneCloses]
        rfl

theorem blockLines_of_outer {document : Text} (fed : returnsFed document = true)
    {below : Text}
    (below_eq :
      document = List.replicate count '\n' ++ outer.headLine ++ below)
    (starts : ∀ first, below.head? = some first →
      first = '\n' ∨ first = '|' ∨ first = '#') :
    blockLines (trimLineEnds (slice document
        (outer.headingAt count).bodyStart document.length)) =
      Line.cut 0 [] (trimLineEnds (slice document
        (outer.headingAt count).bodyStart document.length)) := by
  have body_eq :
      slice document (outer.headingAt count).bodyStart document.length =
        below := by
    apply slice_eq (below_eq.trans (List.append_nil _).symm)
    · simp [Part.headingAt]
    · rw [below_eq, List.length_append]
  have headEnds := outer.headLine_ends (List.replicate count '\n')
  rw [below_eq, returnsFed_append _ headEnds.getLast?_ne, Bool.and_eq_true]
    at fed
  rw [body_eq]
  exact blockLines_trimLineEnds fed.2 starts

theorem trimLineEnds_slice_part
    (ended : ∀ other ∈ back, other.level ≤ part.level) {document : Text}
    (part_eq :
      document = List.replicate count '\n' ++ outer.text ++ textOf front ++
        part.text ++ textOf back)
    {start : Nat}
    (start_eq : start = count + outer.text.length + (textOf front).length) :
    trimLineEnds (slice document (part.headingAt start).bodyStart
        (sectionEnd part.level document.length
          (headingsAt (start + part.text.length) back))) =
      trimLineEnds part.content := by
  have length_eq :
      document.length =
        start + part.text.length + (textOf back).length := by
    simp [part_eq, start_eq]
    omega
  have content_eq :
      document = List.replicate count '\n' ++ outer.text ++ textOf front ++
        part.headLine ++ part.content ++ textOf back := by
    simp [part_eq, Part.text]
  rw [length_eq, sectionEnd_headingsAt ended]
  congr 1
  apply slice_eq content_eq
  · simp [Part.headingAt, start_eq]
    omega
  · simp [Part.text, start_eq]
    omega

/-- The section of a part inside the first part is what is written below its
heading. -/
theorem sectionText_textOf
    (closed : AreClosed (outer :: (front ++ part :: back)))
    (deeper : ∀ other ∈ front ++ part :: back, outer.level < other.level)
    (others : ∀ other ∈ front,
      Text.sameIgnoringCase other.name part.name = false)
    (ended : ∀ other ∈ back, other.level ≤ part.level) :
    sectionText
        (List.replicate count '\n' ++
          textOf (outer :: (front ++ part :: back)))
        outer.name part.name =
      trimLineEnds part.content := by
  have fed := (textSites_textOf count closed).1
  generalize written :
    List.replicate count '\n' ++ textOf (outer :: (front ++ part :: back)) =
      document at fed ⊢
  obtain ⟨site, following, search, heading_eq, flat, inside_eq, end_eq,
    following_eq, noneNeedsEnd⟩ :=
    exists_outer_site count closed deeper written.symm
  have below_eq :
      document = List.replicate count '\n' ++ outer.headLine ++
        (outer.content ++ textOf (front ++ part :: back)) := by
    simp [← written, textOf, Part.text]
  have part_eq :
      document = List.replicate count '\n' ++ outer.text ++ textOf front ++
        part.text ++ textOf back := by
    simp [← written, textOf]
  have plain (block : Text)
      (isBlock : block? document outer.name = some block) :
      blockLines block = Line.cut 0 [] block := by
    rw [block?_of_site search, heading_eq, end_eq,
      Option.some.injEq] at isBlock
    rw [← isBlock]
    exact blockLines_of_outer count fed below_eq fun _ => head?_below
  rw [sectionText_of_site fed search flat plain, inside_eq, following_eq,
    headingFrom?_headingsAt others, end_eq]
  · exact trimLineEnds_slice_part count ended part_eq rfl
  · -- A heading that needs the end of its line would close the section too
    -- early, and no part has one.
    intro found later last isFound closing needsEnd
    rw [inside_eq] at isFound
    obtain ⟨before, parts⟩ := firstNamed?_eq_some _ isFound
    have member : last ∈ following := by
      simp [parts, List.mem_of_find?_eq_some closing]
    rw [noneNeedsEnd last member] at needsEnd
    cases needsEnd

end Parts

end ComponentDocs.Page
