import ComponentDocs.Proofs.Markdown.Rows
import ComponentDocs.Proofs.Page.OpenSection

/-!
The sections of a text with a table in it: a section has the table at one place
or not at all, and with alike rows in the place of those of the table it is the
same but for them.
-/

namespace ComponentDocs.Page

open ComponentDocs.Markdown

/-! ## Ends of lines -/

/-- What is left of a text after a line when it is cut off anywhere. -/
theorem endsLine_trimLineEnds {after : Text} (ends : EndsLine after)
    (count : Nat) : EndsLine (trimLineEnds (after.take count)) := by
  obtain ⟨lost, parts, areEnds, visible⟩ :=
    exists_trimLineEnds (after.take count)
  by_cases nothing : trimLineEnds (after.take count) = []
  · exact .inl nothing
  rcases ends with rfl | ⟨ending, rest, isEnding, rfl⟩
  · exact absurd (by rw [List.take_nil]; rfl) nothing
  · have isPrefix : trimLineEnds ((ending ++ rest).take count) <+:
        ending ++ rest :=
      (List.prefix_append _ lost).trans
        (parts ▸ List.take_prefix count (ending ++ rest))
    rcases List.prefix_or_prefix_of_prefix isPrefix
        (List.prefix_append ending rest) with short | ⟨more, longer⟩
    · -- All that is left would be line ends.
      obtain ⟨last, isLast⟩ : ∃ last,
          (trimLineEnds ((ending ++ rest).take count)).getLast? = some last :=
        ⟨_, List.getLast?_eq_some_getLast nothing⟩
      have inEnding : last ∈ ending :=
        short.subset (List.mem_of_getLast? isLast)
      have shown := visible last isLast
      rcases isEnding with rfl | rfl
      · exact absurd (List.mem_singleton.mp inEnding) shown.1
      · rcases List.mem_pair.mp inEnding with isReturn | isFeed
        · exact absurd isReturn shown.2
        · exact absurd isFeed shown.1
    · exact .inr ⟨ending, more, isEnding, longer.symm⟩

/-! ## Around a table -/

/-- What the section of a name has above and below a piece of the text, when the
piece is in it. -/
def sectionAround? (above piece below name : Text) : Option (Text × Text) :=
  let text := above ++ (piece ++ below)
  match headingFrom? name (headings text) with
  | some (heading, following) =>
      let stop := sectionEnd heading.level text.length following
      if heading.bodyStart ≤ above.length ∧ (above ++ piece).length ≤ stop then
        some (above.drop heading.bodyStart,
          trimLineEnds (below.take (stop - (above ++ piece).length)))
      else none
  | none => none

theorem slice_around {above piece below : Text} {start stop : Nat}
    (inside : start ≤ above.length) (beyond : (above ++ piece).length ≤ stop) :
    slice (above ++ (piece ++ below)) start stop =
      above.drop start ++
        (piece ++ below.take (stop - (above ++ piece).length)) := by
  obtain ⟨more, rfl⟩ := Nat.exists_eq_add_of_le beyond
  rw [slice, ← List.append_assoc, List.take_length_add_append,
    List.append_assoc, List.drop_append_of_le_length inside,
    Nat.add_sub_cancel_left]

theorem slice_behind {above piece below : Text} {start : Nat}
    (behind : (above ++ piece).length ≤ start) (stop : Nat) :
    slice (above ++ (piece ++ below)) start stop =
      slice below (start - (above ++ piece).length)
        (stop - (above ++ piece).length) := by
  have sameLength :
      stop - (above ++ piece).length - (start - (above ++ piece).length) =
        stop - start := by
    omega
  rw [slice, slice, List.drop_take, List.drop_take, ← List.append_assoc,
    List.drop_append, List.drop_eq_nil_of_le behind, List.nil_append,
    sameLength]

/-- A section ends on one side of a piece that all headings avoid. -/
theorem sectionEnd_avoids {above piece : Text} (below : Text) (level : Nat)
    {following : List Heading}
    (avoid : ∀ heading ∈ following,
      heading.Avoids above.length (above ++ piece).length) :
    sectionEnd level (above ++ (piece ++ below)).length following ≤
        above.length ∨
      (above ++ piece).length ≤
        sectionEnd level (above ++ (piece ++ below)).length following := by
  unfold sectionEnd
  split
  · rename_i heading found
    rcases avoid heading (List.mem_of_find?_eq_some found) with
      ⟨before, -⟩ | ⟨behind, -⟩
    · exact .inl before
    · exact .inr behind
  · right
    simp only [List.length_append]
    omega

theorem trimLineEnds_around (lead : Text) {piece : Text}
    (shown : piece ≠ []) (visible : trimLineEnds piece = piece)
    (rest : Text) :
    trimLineEnds (lead ++ (piece ++ rest)) =
      lead ++ (piece ++ trimLineEnds rest) := by
  have kept : trimLineEnds (piece ++ rest) = piece ++ trimLineEnds rest := by
    by_cases nothing : trimLineEnds rest = []
    · obtain ⟨ends, parts, areEnds, -⟩ := exists_trimLineEnds rest
      rw [nothing, List.nil_append] at parts
      rw [nothing, List.append_nil, parts, trimLineEnds_append _ areEnds,
        visible]
    · exact trimLineEnds_append_of_visible piece nothing
  rw [trimLineEnds_append_of_visible, kept]
  rw [kept]
  simp [shown]

theorem exists_of_sectionAround? {above piece below name lead rest : Text}
    (around : sectionAround? above piece below name = some (lead, rest)) :
    ∃ heading following stop,
      headingFrom? name (headings (above ++ (piece ++ below))) =
          some (heading, following) ∧
        sectionEnd heading.level (above ++ (piece ++ below)).length following =
          stop ∧
        heading.bodyStart ≤ above.length ∧ (above ++ piece).length ≤ stop ∧
        above.drop heading.bodyStart = lead ∧
        trimLineEnds (below.take (stop - (above ++ piece).length)) = rest := by
  unfold sectionAround? at around
  dsimp only at around
  split at around
  · rename_i heading following found
    rw [Option.ite_none_right_eq_some, Option.some.injEq,
      Prod.mk.injEq] at around
    obtain ⟨⟨inside, beyond⟩, sameLead, sameRest⟩ := around
    exact ⟨heading, following, _, found, rfl, inside, beyond, sameLead,
      sameRest⟩
  · cases around

/-- A section with a piece in it. -/
theorem block?_of_around {above piece below name lead rest : Text}
    (shown : piece ≠ []) (visible : trimLineEnds piece = piece)
    (around : sectionAround? above piece below name = some (lead, rest)) :
    block? (above ++ (piece ++ below)) name =
      some (lead ++ (piece ++ rest)) := by
  obtain ⟨heading, following, stop, found, isStop, inside, beyond, rfl, rfl⟩ :=
    exists_of_sectionAround? around
  rw [block?, found]
  dsimp only
  rw [isStop, slice_around inside beyond, trimLineEnds_around _ shown visible]

/-- Above a piece in a section stands a heading. -/
theorem ne_nil_of_sectionAround? {above piece below name lead rest : Text}
    (around : sectionAround? above piece below name = some (lead, rest)) :
    above ≠ [] := by
  obtain ⟨heading, following, stop, found, -, inside, -⟩ :=
    exists_of_sectionAround? around
  have positive := bodyStart_pos (mem_of_headingFrom? found).1
  rintro rfl
  rw [List.length_nil] at inside
  omega

theorem startsLine_of_sectionAround? {above piece below name lead rest : Text}
    (starts : StartsLine above)
    (around : sectionAround? above piece below name = some (lead, rest)) :
    StartsLine lead := by
  obtain ⟨heading, following, stop, -, -, -, -, rfl, -⟩ :=
    exists_of_sectionAround? around
  exact starts.drop heading.bodyStart

theorem endsLine_of_sectionAround? {above piece below name lead rest : Text}
    (ends : EndsLine below)
    (around : sectionAround? above piece below name = some (lead, rest)) :
    EndsLine rest := by
  obtain ⟨heading, following, stop, -, -, -, -, -, rfl⟩ :=
    exists_of_sectionAround? around
  exact endsLine_trimLineEnds ends _

/-! ## Rows in a section -/

section Rows

variable {above below ending : Text} {rows others : List Text}
  (alike : List.Forall₂ RowAlike rows others) (several : 2 ≤ rows.length)
  (isEnding : IsEnding ending)
  (place : TakesTable above (Text.join ending rows) below)

include alike

theorem length_join_of_alike (ending : Text) :
    (Text.join ending rows).length = (Text.join ending others).length := by
  simpa [feeds] using
    congrArg List.length (feeds_join_of_alike alike ending)

include several isEnding place

theorem sectionAround?_rows (name : Text) :
    sectionAround? above (Text.join ending others) below name =
      sectionAround? above (Text.join ending rows) below name := by
  have sameLength := length_join_of_alike alike ending
  simp only [sectionAround?,
    headings_rows alike several isEnding place,
    List.length_append, sameLength]

/-- A section that does not have the table is the same with alike rows. -/
theorem block?_rows_of_not_around {name : Text}
    (notAround :
      sectionAround? above (Text.join ending rows) below name = none) :
    block? (above ++ (Text.join ending others ++ below)) name =
      block? (above ++ (Text.join ending rows ++ below)) name := by
  have sameHeadings :=
    headings_rows alike several isEnding place
  have sameLength :
      (above ++ Text.join ending others).length =
        (above ++ Text.join ending rows).length := by
    rw [List.length_append, List.length_append,
      length_join_of_alike alike ending]
  have sameWhole :
      (above ++ (Text.join ending others ++ below)).length =
        (above ++ (Text.join ending rows ++ below)).length := by
    rw [← List.append_assoc, ← List.append_assoc, List.length_append,
      sameLength, ← List.length_append]
  unfold sectionAround? at notAround
  dsimp only at notAround
  rw [block?, block?, sameHeadings, sameWhole]
  cases found : headingFrom? name
      (headings (above ++ (Text.join ending rows ++ below))) with
  | none => rfl
  | some result =>
      obtain ⟨heading, following⟩ := result
      obtain ⟨isHeading, areHeadings⟩ := mem_of_headingFrom? found
      rw [found] at notAround
      dsimp only at notAround ⊢
      rw [ite_eq_right_iff] at notAround
      have stopAvoids := sectionEnd_avoids below heading.level
        fun later member => place.apart later (areHeadings member)
      congr 2
      rcases place.apart heading isHeading with ⟨-, inside⟩ | ⟨-, behind⟩
      · rcases stopAvoids with short | beyond
        · rw [slice_append_left _ _ short, slice_append_left _ _ short]
        · cases notAround ⟨inside, beyond⟩
      · rw [slice_behind behind, slice_behind (sameLength ▸ behind),
          sameLength]

/-- The introduction is the same with alike rows when a subheading ends it above
them. -/
theorem introduction?_rows
    (introduced : ∃ heading,
      (headings (above ++ (Text.join ending rows ++ below))).find?
          (fun heading => heading.level != 1) = some heading ∧
        heading.start ≤ above.length) :
    introduction? (above ++ (Text.join ending others ++ below)) =
      introduction? (above ++ (Text.join ending rows ++ below)) := by
  obtain ⟨heading, found, inside⟩ := introduced
  unfold introduction?
  dsimp only
  rw [headings_rows alike several isEnding place, found]
  dsimp only
  rw [slice_append_left _ _ inside, slice_append_left _ _ inside]

end Rows

end ComponentDocs.Page
