import ComponentDocs.Proofs.Markdown.Break
import ComponentDocs.Proofs.Page.Section

/-!
Sections of a text in two parts: the section that the first part opens and does
not end goes on in the second part, and all others stand in one of the parts.
A code block between the parts changes the open sections and no other.
-/

namespace ComponentDocs.Page

open ComponentDocs.Markdown

/-! ## Headings in two parts -/

theorem headingFrom?_eq_firstNamed? (name : Text) (items : List Heading) :
    headingFrom? name items = firstNamed? id name items := by
  have same := headingFrom?_map id name items
  rw [List.map_id] at same
  rw [same]
  cases firstNamed? id name items <;> simp

theorem headingFrom?_append (name : Text) (items others : List Heading) :
    headingFrom? name (items ++ others) =
      ((headingFrom? name items).map fun found =>
        (found.1, found.2 ++ others)).or (headingFrom? name others) := by
  simp only [headingFrom?_eq_firstNamed?]
  exact firstNamed?_append id name items others

theorem headingFrom?_shift (name : Text) (amount : Nat)
    (items : List Heading) :
    headingFrom? name (items.map (Heading.shift amount)) =
      (headingFrom? name items).map fun found =>
        (found.1.shift amount, found.2.map (Heading.shift amount)) := by
  rw [headingFrom?_map, headingFrom?_eq_firstNamed?,
    firstNamed?_congr (Heading.shift amount) id name fun _ => rfl]

theorem mem_of_headingFrom? {name : Text} {items rest : List Heading}
    {heading : Heading}
    (found : headingFrom? name items = some (heading, rest)) :
    heading ∈ items ∧ rest ⊆ items := by
  rw [headingFrom?_eq_firstNamed?] at found
  obtain ⟨before, rfl⟩ := firstNamed?_eq_some id found
  exact ⟨by simp, fun later member => by simp [member]⟩

theorem sectionEnd_shift (level stop amount : Nat) (items : List Heading) :
    sectionEnd level (stop + amount) (items.map (Heading.shift amount)) =
      sectionEnd level stop items + amount := by
  have sameSearch :
      (items.map (Heading.shift amount)).find?
          (fun heading => heading.level ≤ level) =
        (items.find? fun heading => heading.level ≤ level).map
          (Heading.shift amount) := by
    rw [List.find?_map]
    rfl
  rw [sectionEnd, sectionEnd, sameSearch]
  cases items.find? fun heading => heading.level ≤ level <;> rfl

theorem sectionEnd_append_of_open {level : Nat} (stop : Nat)
    {items : List Heading}
    (opened : ∀ heading ∈ items, level < heading.level)
    (others : List Heading) :
    sectionEnd level stop (items ++ others) =
      sectionEnd level stop others := by
  have passed :
      items.find? (fun heading => heading.level ≤ level) = none := by
    simpa using opened
  rw [sectionEnd, sectionEnd, List.find?_append, passed, Option.none_or]

theorem sectionEnd_append_of_closed {level stop other : Nat}
    {items : List Heading} (closed : ∃ heading ∈ items, heading.level ≤ level)
    (others : List Heading) :
    sectionEnd level stop (items ++ others) =
      sectionEnd level other items := by
  have found :
      (items.find? fun heading => heading.level ≤ level).isSome := by
    simpa using closed
  obtain ⟨heading, isFirst⟩ := Option.isSome_iff_exists.mp found
  rw [sectionEnd, sectionEnd, List.find?_append, isFirst]
  rfl

theorem sectionEnd_le (level : Nat) {stop : Nat} {items : List Heading}
    (inside : ∀ heading ∈ items, heading.start ≤ stop) :
    sectionEnd level stop items ≤ stop := by
  unfold sectionEnd
  split
  · rename_i heading found
    exact inside heading (List.mem_of_find?_eq_some found)
  · exact Nat.le_refl stop

/-- The headings of a text stand inside it. -/
theorem le_of_mem_headings {text : Text} {heading : Heading}
    (member : heading ∈ headings text) :
    heading.start ≤ text.length ∧ heading.bodyStart ≤ text.length := by
  obtain ⟨span, isSpan, rfl⟩ := List.mem_map.mp member
  have fits := fitsIn_of_mem_headingSpans (successive_blockLines text)
    (OpenBlocks.within_initial 0 0) span isSpan
  exact ⟨(lineStart_le text span.start).trans fits.start_le,
    nextLineStart_le text fits.finish_le⟩

/-! ## Open sections -/

/-- The section of a name that a text opens and does not end: the level of its
heading and its text so far. -/
def openSection? (above name : Text) : Option (Nat × Text) :=
  match headingFrom? name (headings above) with
  | some (heading, following) =>
      if following.all fun later => heading.level < later.level then
        some (heading.level, above.drop heading.bodyStart)
      else none
  | none => none

/-- What a text below gives to an open section: all up to the next heading of
the same or a higher level. -/
def sectionRest (level : Nat) (below : Text) : Text :=
  below.take (sectionEnd level below.length (innerHeadings below))

theorem exists_of_openSection? {above name lead : Text} {level : Nat}
    (opened : openSection? above name = some (level, lead)) :
    ∃ heading following,
      headingFrom? name (headings above) = some (heading, following) ∧
        heading.level = level ∧ above.drop heading.bodyStart = lead ∧
        ∀ later ∈ following, level < later.level := by
  unfold openSection? at opened
  split at opened
  · rename_i heading following found
    rw [Option.ite_none_right_eq_some, Option.some.injEq,
      Prod.mk.injEq] at opened
    obtain ⟨deeper, rfl, sameLead⟩ := opened
    exact ⟨heading, following, found, rfl, sameLead, by simpa using deeper⟩
  · cases opened

/-- An open section goes on below. -/
theorem block?_of_open {above rest name lead : Text} {level : Nat}
    (splits : Splits above rest)
    (opened : openSection? above name = some (level, lead)) :
    block? (above ++ rest) name =
      some (trimLineEnds (lead ++ sectionRest level rest)) := by
  obtain ⟨heading, following, found, rfl, rfl, deeper⟩ :=
    exists_of_openSection? opened
  have inside :=
    (le_of_mem_headings (mem_of_headingFrom? found).1).2
  have stop :
      sectionEnd heading.level (above ++ rest).length
          (following ++
            (innerHeadings rest).map (Heading.shift above.length)) =
        above.length +
          sectionEnd heading.level rest.length (innerHeadings rest) := by
    rw [sectionEnd_append_of_open _ deeper, List.length_append,
      Nat.add_comm above.length, sectionEnd_shift, Nat.add_comm]
  rw [block?, splits, headingFrom?_append, found, Option.map_some,
    Option.some_or]
  dsimp only
  rw [stop, slice, List.take_length_add_append,
    List.drop_append_of_le_length inside]
  rfl

/-- The text under the first heading of a name in a text of which all lines
count. -/
def innerBlock? (text name : Text) : Option Text :=
  match headingFrom? name (innerHeadings text) with
  | some (heading, following) =>
      some <| trimLineEnds <|
        slice text heading.bodyStart
          (sectionEnd heading.level text.length following)
  | none => none

theorem slice_append_right (above text : Text) (start stop : Nat) :
    slice (above ++ text) (start + above.length) (stop + above.length) =
      slice text start stop := by
  rw [slice, slice, Nat.add_comm stop, Nat.add_comm start,
    List.take_length_add_append, List.drop_length_add_append]

theorem slice_append_left {above : Text} (rest : Text) (start : Nat)
    {stop : Nat} (inside : stop ≤ above.length) :
    slice (above ++ rest) start stop = slice above start stop := by
  rw [slice, slice, List.take_append_of_le_length inside]

/-- A section with a heading below stands below. -/
theorem block?_of_absent {above rest name : Text}
    (splits : Splits above rest)
    (absent : headingFrom? name (headings above) = none) :
    block? (above ++ rest) name = innerBlock? rest name := by
  rw [block?, innerBlock?, splits, headingFrom?_append, absent,
    headingFrom?_shift]
  cases headingFrom? name (innerHeadings rest) with
  | none => rfl
  | some found =>
      dsimp only [Option.map_none, Option.none_or, Option.map_some]
      rw [List.length_append, Nat.add_comm above.length, Heading.shift]
      dsimp only
      rw [sectionEnd_shift, slice_append_right]

/-- A section that ends above stands above. -/
theorem block?_of_closed {above rest name : Text} {heading : Heading}
    {following : List Heading} (splits : Splits above rest)
    (found :
      headingFrom? name (headings above) = some (heading, following))
    (closed : ∃ later ∈ following, later.level ≤ heading.level) :
    block? (above ++ rest) name =
      some (trimLineEnds <|
        slice above heading.bodyStart
          (sectionEnd heading.level above.length following)) := by
  have inside :
      sectionEnd heading.level above.length following ≤ above.length :=
    sectionEnd_le _ fun later member =>
      (le_of_mem_headings ((mem_of_headingFrom? found).2 member)).1
  rw [block?, splits, headingFrom?_append, found, Option.map_some,
    Option.some_or]
  dsimp only
  rw [sectionEnd_append_of_closed closed, slice_append_left rest _ inside]

theorem startsLine_of_openSection? {above name lead : Text} {level : Nat}
    (starts : StartsLine above)
    (opened : openSection? above name = some (level, lead)) :
    StartsLine lead := by
  obtain ⟨heading, following, -, -, rfl, -⟩ := exists_of_openSection? opened
  exact starts.drop heading.bodyStart

/-! ## Ends of sections -/

/-- Line ends are not taken from above what shows. -/
theorem trimLineEnds_append_of_visible (lead : Text) {text : Text}
    (visible : trimLineEnds text ≠ []) :
    trimLineEnds (lead ++ text) = lead ++ trimLineEnds text := by
  obtain ⟨ends, parts, areEnds, stops⟩ := exists_trimLineEnds text
  have whole : lead ++ text = lead ++ trimLineEnds text ++ ends := by
    rw [List.append_assoc, ← parts]
  rw [whole, trimLineEnds_append _ areEnds]
  apply Text.dropEndWhile_eq_self
  intro last isLast
  rw [List.getLast?_append, List.getLast?_eq_some_getLast visible,
    Option.some_or] at isLast
  have shown := stops last <| by
    rw [List.getLast?_eq_some_getLast visible, isLast]
  simpa [isLineEnd] using shown

/-- What a text below gives to an open section, without the line ends at its
end. -/
def shownRest (level : Nat) (below : Text) : Text :=
  trimLineEnds (sectionRest level below)

theorem block?_of_shown {above below name lead : Text} {level : Nat}
    (splits : Splits above below)
    (opened : openSection? above name = some (level, lead))
    (shown : shownRest level below ≠ []) :
    block? (above ++ below) name = some (lead ++ shownRest level below) := by
  rw [block?_of_open splits opened, trimLineEnds_append_of_visible lead shown]
  rfl

/-! ## Code blocks -/

section Insert

variable {fenced : FencedCode} {above below : Text}
variable (place : TakesCode fenced above below)

theorem sectionRest_insert (level : Nat) :
    sectionRest level (fenced.text ++ below) =
      fenced.text ++ sectionRest level below := by
  rw [sectionRest, fenced.innerHeadings_text_append, List.length_append,
    Nat.add_comm fenced.text.length, sectionEnd_shift, Nat.add_comm,
    List.take_length_add_append]
  rfl

theorem innerBlock?_insert (name : Text) :
    innerBlock? (fenced.text ++ below) name = innerBlock? below name := by
  rw [innerBlock?, innerBlock?, fenced.innerHeadings_text_append,
    headingFrom?_shift]
  cases headingFrom? name (innerHeadings below) with
  | none => rfl
  | some found =>
      dsimp only [Option.map_some]
      rw [List.length_append, Nat.add_comm fenced.text.length, Heading.shift]
      dsimp only
      rw [sectionEnd_shift, slice_append_right]

include place

/-- A code block changes no section but those that are open where it
stands. -/
theorem block?_insert {name : Text} (notOpen : openSection? above name = none) :
    block? (above ++ (fenced.text ++ below)) name =
      block? (above ++ below) name := by
  cases found : headingFrom? name (headings above) with
  | none =>
      rw [block?_of_absent place.splits_insert found,
        block?_of_absent place.splits found, innerBlock?_insert]
  | some result =>
      obtain ⟨heading, following⟩ := result
      have closed : ∃ later ∈ following, later.level ≤ heading.level := by
        rw [openSection?, found] at notOpen
        simpa using notOpen
      rw [block?_of_closed place.splits_insert found closed,
        block?_of_closed place.splits found closed]

/-- A code block in an open section stands at its place in the section. -/
theorem block?_insert_of_shown {name lead : Text} {level : Nat}
    (opened : openSection? above name = some (level, lead))
    (shown : shownRest level below ≠ []) :
    block? (above ++ (fenced.text ++ below)) name =
      some (lead ++ (fenced.text ++ shownRest level below)) := by
  rw [block?_of_open place.splits_insert opened, sectionRest_insert,
    ← List.append_assoc, trimLineEnds_append_of_visible _ shown,
    List.append_assoc]
  rfl

end Insert

/-- A place for a code block in the open section of a name: one between two
blocks of the text, and between two blocks of the section when it is read on its
own, above something that the section shows. -/
structure SectionTakesCode (fenced : FencedCode) (above below name : Text)
    (level : Nat) (lead : Text) : Prop where
  place : TakesCode fenced above below
  opened : openSection? above name = some (level, lead)
  shown : shownRest level below ≠ []
  inside : TakesCode fenced lead (shownRest level below)

end ComponentDocs.Page
