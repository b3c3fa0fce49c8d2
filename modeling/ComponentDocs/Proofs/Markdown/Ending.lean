import ComponentDocs.Markdown.Heading
import ComponentDocs.Proofs.Markdown.Opened

/-!
The ends of lines: a last line without an end marks a heading only by hashes
with text after them, and an empty line marks none.
-/

namespace ComponentDocs.Markdown

def Line.unended (line : Line) : Line :=
  { line with ending := [] }

/-- The heading with the end of a line as its own. -/
def HeadingSpan.endAt (line : Line) (span : HeadingSpan) : HeadingSpan :=
  { span with finish := line.finish }

/-! ## Lines without an end -/

theorem hashHeading?_unended {line : Line} {cursor : Cursor}
    {span : HeadingSpan}
    (marked : hashHeading? line.unended cursor = some span) :
    hashHeading? line cursor = some (span.endAt line) := by
  unfold hashHeading? at marked ⊢
  cases hashes : Marker.hashes? cursor.visible with
  | none =>
      rw [hashes] at marked
      cases marked
  | some mark =>
      obtain ⟨level, rest⟩ := mark
      rw [hashes] at marked
      dsimp only at marked ⊢
      cases empty : (rest.dropWhile isIndent).isEmpty with
      | true =>
          rw [empty] at marked
          cases marked
      | false =>
          rw [empty] at marked
          cases marked
          rfl

theorem underlineOf?_unended (line : Line) (above : Above) (visible : Text) :
    underlineOf? line.unended above visible = none := by
  unfold underlineOf?
  split
  · exact if_neg (by simp [Line.unended, Line.isEnded])
  · rfl

/-- A run that is not empty starts with its mark. -/
theorem Marker.exists_of_run {mark : Char} {text : Text}
    (positive : run mark text ≠ 0) :
    ∃ rest, text = mark :: rest ∧ run mark text = run mark rest + 1 := by
  cases text with
  | nil => exact absurd rfl positive
  | cons first rest =>
      by_cases same : first = mark
      · subst same
        exact ⟨rest, rfl, by simp [run]⟩
      · exact absurd (by simp [run, same]) positive

/-- Hashes are no list marker. -/
theorem Marker.listMarker?_of_hashes? {text rest : Text} {level : Nat}
    (marked : hashes? text = some (level, rest)) (inParagraph : Bool) :
    listMarker? inParagraph text = none := by
  obtain ⟨positive, runs, -⟩ := hashes?_eq marked
  obtain ⟨others, rfl, -⟩ := exists_of_run (runs ▸ positive)
  simp [listMarker?, Char.isDigit]

/-- An underline is no list marker inside a paragraph. -/
theorem Marker.listMarker?_of_underline? {text : Text} {level : Nat}
    (marked : underline? text = some level) :
    listMarker? true text = none := by
  dsimp only [underline?] at marked
  split at marked
  · rename_i double
    simp only [Bool.and_eq_true, decide_eq_true_eq] at double
    obtain ⟨others, rfl, -⟩ := exists_of_run double.1
    simp [listMarker?, Char.isDigit]
  · split at marked
    · rename_i single
      simp only [Bool.and_eq_true, decide_eq_true_eq] at single
      obtain ⟨others, rfl, longer⟩ := exists_of_run single.1
      by_cases more : run '-' others = 0
      · have spaced : isSpaced others = true := by
          have rest := single.2
          rwa [longer, more, Nat.zero_add, List.drop_one,
            List.tail_cons] at rest
        simp [listMarker?, spaced]
      · obtain ⟨further, rfl, -⟩ := exists_of_run more
        simp [listMarker?, isSetOff, isIndent]
    · cases marked

theorem hashHeading?_of_listMarker? {line : Line} {cursor : Cursor}
    {inParagraph : Bool} {length : Nat}
    (marker : Marker.listMarker? inParagraph cursor.visible = some length) :
    hashHeading? line cursor = none := by
  rw [hashHeading?]
  cases hashes : Marker.hashes? cursor.visible with
  | none => rfl
  | some mark =>
      rw [Marker.listMarker?_of_hashes? hashes] at marker
      cases marker

theorem underlineOf?_of_listMarker? {line : Line} {above : Above}
    {visible : Text} {length : Nat}
    (marker : Marker.listMarker? above.isInner visible = some length) :
    underlineOf? line above visible = none := by
  unfold underlineOf?
  split
  · rename_i lines level isOpen underlined
    have inner : above.isInner = true := by
      cases above <;> first | rfl | cases isOpen
    rw [inner, Marker.listMarker?_of_underline? underlined] at marker
    cases marker
  · rfl

/-- A heading on a line without an end is one with an end, too. -/
theorem openBlocks_unended {line : Line} {fuel : Nat} {above : Above}
    {cursor : Cursor} {span : HeadingSpan}
    (opens : (openBlocks line.unended fuel above cursor).2 = .heading span) :
    (openBlocks line fuel above cursor).2 = .heading (span.endAt line) := by
  -- The cases are the tests in their order. Only the two for headings look at
  -- the end of the line, and they pass only where they give the heading.
  induction fuel generalizing above cursor with
  | zero =>
      cases opens
  | succ fuel inductionHypothesis =>
      rw [openBlocks] at opens ⊢
      dsimp only at opens ⊢
      rw [underlineOf?_unended] at opens
      by_cases blank : cursor.isBlank = true
      · rw [if_pos blank] at opens
        cases opens
      rw [if_neg blank] at opens ⊢
      by_cases wide : 4 ≤ cursor.indent
      · rw [if_pos wide] at opens
        split at opens <;> cases opens
      rw [if_neg wide] at opens ⊢
      by_cases quoted : Container.startsQuote cursor = true
      · rw [if_pos quoted] at opens ⊢
        exact inductionHypothesis opens
      rw [if_neg quoted] at opens ⊢
      cases unended : hashHeading? line.unended cursor with
      | some found =>
          rw [unended] at opens
          injection opens with sameSpan
          rw [hashHeading?_unended unended, sameSpan]
      | none =>
          rw [unended] at opens
          dsimp only at opens
          cases leaf : openLeaf? above cursor with
          | some leaf =>
              rw [leaf] at opens
              cases opens
          | none =>
              rw [leaf] at opens
              dsimp only at opens ⊢
              by_cases rule : Marker.isRule cursor.visible = true
              · rw [if_pos rule] at opens
                cases opens
              rw [if_neg rule] at opens ⊢
              cases marker :
                  Marker.listMarker? above.isInner cursor.visible with
              | none =>
                  rw [marker] at opens
                  dsimp only at opens
                  split at opens <;> cases opens
              | some length =>
                  rw [marker] at opens
                  have noHashes : hashHeading? line cursor = none :=
                    hashHeading?_of_listMarker? marker
                  have noUnderline :
                      underlineOf? line above cursor.visible = none :=
                    underlineOf?_of_listMarker? marker
                  rw [noHashes, noUnderline]
                  exact inductionHypothesis opens

namespace OpenBlocks

theorem openNew_unended {blocks : OpenBlocks} {line : Line}
    {continued : List Container} {all : Bool} {cursor : Cursor}
    {span : HeadingSpan}
    (opens :
      (blocks.openNew line.unended continued all cursor).2 = some span) :
    (blocks.openNew line continued all cursor).2 =
      some (span.endAt line) := by
  have found :
      (openBlocks line.unended (cursor.rest.length + 1)
        (blocks.leaf.above all cursor) cursor).2 = .heading span := by
    rw [openNew] at opens
    dsimp only at opens
    split at opens
    · rename_i other isHeading
      injection opens with sameSpan
      rw [isHeading, sameSpan]
    · cases opens
    · split at opens
      · cases opens
      · split at opens <;> cases opens
  rw [openNew]
  dsimp only
  rw [openBlocks_unended found]

/-- A line that completes a heading without its end completes it with its
end. -/
theorem next_unended {blocks : OpenBlocks} {line : Line} {span : HeadingSpan}
    (completes : (blocks.next line.unended).2 = some span) :
    (blocks.next line).2 = some (span.endAt line) := by
  have sameCursor : Cursor.ofLine line.unended = Cursor.ofLine line := rfl
  rw [next, sameCursor] at completes
  rw [next]
  generalize Container.continueAll (Cursor.ofLine line) blocks.containers =
    result at completes ⊢
  obtain ⟨continued, all, cursor⟩ := result
  dsimp only at completes ⊢
  split at completes
  · cases completes
  · exact openNew_unended completes

/-! ## Empty lines -/

/-- An empty line completes no heading. -/
theorem next_of_content_eq_nil (blocks : OpenBlocks) {line : Line}
    (empty : line.content = []) : (blocks.next line).2 = none := by
  have within :=
    Container.visible_continueAll_ofLine line blocks.containers
  rw [next]
  generalize Container.continueAll (Cursor.ofLine line) blocks.containers =
    result at within ⊢
  obtain ⟨continued, all, cursor⟩ := result
  have blank : cursor.isBlank = true := by
    rw [empty, List.suffix_nil] at within
    rw [Cursor.isBlank, within]
    rfl
  dsimp only
  split
  · rfl
  · rw [openNew, openBlocks]
    simp [blank]

end OpenBlocks

end ComponentDocs.Markdown
