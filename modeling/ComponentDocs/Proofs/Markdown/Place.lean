import ComponentDocs.Markdown.Heading
import Mathlib.Data.List.DropRight
import Mathlib.Data.List.TakeWhile

/-!
The places of headings in a piece of a text, against their places in the text.
-/

namespace ComponentDocs.Markdown

/-- A text after which a line starts: it is empty or ends in a line feed. -/
def StartsLine (before : Text) : Prop :=
  before = [] ∨ before.getLast? = some '\n'

/-! ## Starts of lines -/

theorem lineStart_le (text : Text) (offset : Nat) :
    lineStart text offset ≤ offset :=
  Nat.sub_le _ _

theorem lineStart_append_left {text : Text} (rest : Text) {offset : Nat}
    (inside : offset ≤ text.length) :
    lineStart (text ++ rest) offset = lineStart text offset := by
  rw [lineStart, lineStart, List.take_append_of_le_length inside]

/-- Behind the start of a line nothing before it counts. -/
theorem lineStart_append_right {before : Text} (starts : StartsLine before)
    (text : Text) (offset : Nat) :
    lineStart (before ++ text) (before.length + offset) =
      before.length + lineStart text offset := by
  have stops :
      before.reverse.takeWhile (· != '\n') = [] := by
    rcases starts with rfl | feed
    · rfl
    · obtain ⟨rest, rfl⟩ := List.getLast?_eq_some_iff.mp feed
      simp
  have sameLength :
      (((before ++ text).take (before.length + offset)).reverse.takeWhile
          (· != '\n')).length =
        ((text.take offset).reverse.takeWhile (· != '\n')).length := by
    rw [List.take_length_add_append, List.reverse_append,
      List.takeWhile_append, stops, List.append_nil]
    split
    · rename_i whole
      exact whole.symm
    · rfl
  have bounded :
      ((text.take offset).reverse.takeWhile (· != '\n')).length ≤ offset := by
    have fits := (List.takeWhile_prefix (· != '\n')
      (l := (text.take offset).reverse)).length_le
    rw [List.length_reverse, List.length_take] at fits
    omega
  rw [lineStart, lineStart, sameLength]
  omega

theorem lineStart_of_startsLine {before : Text} (starts : StartsLine before)
    (text : Text) :
    lineStart (before ++ text) before.length = before.length := by
  have first : lineStart text 0 = 0 :=
    Nat.zero_sub _
  have moved := lineStart_append_right starts text 0
  rwa [first, Nat.add_zero] at moved

section OnLine

variable (text : Text) {offset : Nat} (inside : offset ≤ text.length)

include inside

theorem length_rdropWhile_line :
    ((text.take offset).rdropWhile (· != '\n')).length =
      lineStart text offset := by
  have whole := congrArg List.length
    (List.rdropWhile_append_rtakeWhile (p := (· != '\n'))
      (l := text.take offset))
  rw [List.length_append, List.length_take, Nat.min_eq_left inside,
    List.rtakeWhile, List.length_reverse] at whole
  rw [lineStart]
  omega

/-- What stands before the start of a line. -/
theorem startsLine_take_lineStart :
    StartsLine (text.take (lineStart text offset)) := by
  have isPrefix :
      (text.take offset).rdropWhile (· != '\n') <+: text :=
    (List.rdropWhile_prefix (p := (· != '\n')) (l := _)).trans
      (List.take_prefix _ _)
  rw [List.prefix_iff_eq_take, length_rdropWhile_line text inside]
    at isPrefix
  rw [← isPrefix]
  by_cases empty : (text.take offset).rdropWhile (· != '\n') = []
  · exact .inl empty
  · right
    have fails := List.rdropWhile_last_not (p := (· != '\n')) _ empty
    rw [List.getLast?_eq_some_getLast empty]
    simpa using fails

/-- No line feed stands between the start of a line and an offset on it. -/
theorem feed_not_mem_line :
    '\n' ∉ (text.take offset).drop (lineStart text offset) := by
  have onLine :
      (text.take offset).drop (lineStart text offset) =
        (text.take offset).rtakeWhile (· != '\n') := by
    rw [← length_rdropWhile_line text inside]
    conv_lhs =>
      arg 2
      rw [← List.rdropWhile_append_rtakeWhile (p := (· != '\n'))
        (l := text.take offset)]
    exact List.drop_left
  rw [onLine]
  intro member
  simpa using List.mem_rtakeWhile_imp member

end OnLine

/-- A later offset stands on the same line, or on one that starts behind the
earlier offset. -/
theorem lineStart_eq_or_lt (text : Text) {offset later : Nat}
    (le : offset ≤ later) (inside : later ≤ text.length) :
    lineStart text later = lineStart text offset ∨
      offset < lineStart text later := by
  obtain ⟨width, rfl⟩ := Nat.exists_eq_add_of_le le
  have between_length :
      ((text.drop offset).take width).reverse.length = width := by
    rw [List.length_reverse, List.length_take, List.length_drop]
    omega
  have fits := (List.takeWhile_prefix (· != '\n')
    (l := ((text.drop offset).take width).reverse)).length_le
  rw [lineStart, lineStart, List.take_add, List.reverse_append,
    List.takeWhile_append]
  split
  · left
    rw [List.length_append]
    omega
  · right
    omega

theorem startsLine_le_lineStart {before : Text} (starts : StartsLine before)
    (text : Text) {offset : Nat} (behind : before.length ≤ offset) :
    before.length ≤ lineStart (before ++ text) offset := by
  obtain ⟨rest, rfl⟩ := Nat.exists_eq_add_of_le behind
  rw [lineStart_append_right starts]
  exact Nat.le_add_right _ _

/-! ## Next lines -/

theorem le_nextLineStart (text : Text) (offset : Nat) :
    min offset text.length ≤ nextLineStart text offset := by
  unfold nextLineStart
  split
  · omega
  · dsimp only
    split <;> omega

theorem nextLineStart_of_startsLine {before : Text}
    (starts : StartsLine before) (text : Text) :
    nextLineStart (before ++ text) before.length = before.length := by
  unfold nextLineStart
  rw [if_pos]
  rcases starts with rfl | feed
  · rfl
  · obtain ⟨rest, rfl⟩ := List.getLast?_eq_some_iff.mp feed
    simp

theorem nextLineStart_length (text : Text) :
    nextLineStart text text.length = text.length := by
  unfold nextLineStart
  split
  · rfl
  · simp

/-- In a piece of a text that starts with a line the next line starts where it
does in the text, or the piece ends before. -/
theorem nextLineStart_inside {before : Text} (starts : StartsLine before)
    (text after : Text) {offset : Nat} (inside : offset ≤ text.length) :
    min (nextLineStart (before ++ text ++ after) (before.length + offset))
        (before.length + text.length) =
      before.length + nextLineStart text offset := by
  cases offset with
  | zero =>
      rw [List.append_assoc, Nat.add_zero,
        nextLineStart_of_startsLine starts]
      have first : nextLineStart text 0 = 0 := rfl
      rw [first]
      omega
  | succ previous =>
      have sameCharacter :
          (before ++ text ++ after)[before.length + previous]? =
            text[previous]? := by
        rw [List.append_assoc,
          List.getElem?_append_right (Nat.le_add_right _ _),
          Nat.add_sub_cancel_left, List.getElem?_append_left inside]
      have sameRest :
          (before ++ text ++ after).drop (before.length + (previous + 1)) =
            text.drop (previous + 1) ++ after := by
        rw [List.append_assoc, List.drop_length_add_append,
          List.drop_append_of_le_length inside]
      have outer :
          before.length + (previous + 1) - 1 = before.length + previous := by
        omega
      have notFirst :
          before.length + (previous + 1) ≠ 0 := by
        omega
      unfold nextLineStart
      rw [outer, sameCharacter, sameRest, Nat.add_sub_cancel]
      simp only [notFirst, Nat.succ_ne_zero, decide_false, Bool.false_or]
      split
      · omega
      · have fits :=
          (List.takeWhile_prefix (· != '\n')
            (l := text.drop (previous + 1))).length_le
        rw [List.takeWhile_append]
        rw [List.length_drop] at fits
        simp only [List.length_append, List.length_drop]
        split
        · rw [List.length_append, List.length_drop]
          split <;> omega
        · rename_i closed
          rw [if_neg (by omega)]
          omega

/-! ## Headings of a piece -/

/-- A heading as it stands in the piece of `length` characters that starts at
`start`. -/
def Heading.inside (start length : Nat) (heading : Heading) : Heading :=
  { heading with
    start := heading.start - start
    bodyStart := min heading.bodyStart (start + length) - start }

/-- A heading stands inside a piece of a text. -/
structure Heading.IsInside (start length : Nat) (heading : Heading) :
    Prop where
  start_ge : start ≤ heading.start
  start_le : heading.start ≤ start + length
  bodyStart_ge : start ≤ heading.bodyStart

section Piece

variable {before text : Text} (after : Text) (starts : StartsLine before)

include starts

theorem nextLineStart_min {offset inner : Nat}
    (inner_le : inner ≤ text.length)
    (same : min offset (before.length + text.length) =
      before.length + inner) :
    min (nextLineStart (before ++ text ++ after) offset)
        (before.length + text.length) =
      before.length + nextLineStart text inner := by
  by_cases early : offset ≤ before.length + text.length
  · rw [Nat.min_eq_left early] at same
    rw [same]
    exact nextLineStart_inside starts text after inner_le
  · have whole : inner = text.length := by
      omega
    have late := le_nextLineStart (before ++ text ++ after) offset
    simp only [List.length_append] at late
    rw [whole, nextLineStart_length]
    omega

/-- The heading at a place of a piece of a text stands at that place of the
text, too. -/
theorem heading_inside {span outer : HeadingSpan}
    (start_le : span.start ≤ text.length)
    (textEnd_le : span.textEnd ≤ text.length)
    (finish_le : span.finish ≤ text.length)
    (level_eq : outer.level = span.level)
    (start_eq : outer.start = before.length + span.start)
    (textStart_eq : outer.textStart = before.length + span.textStart)
    (textEnd_eq : outer.textEnd = before.length + span.textEnd)
    (finish_eq : min outer.finish (before.length + text.length) =
      before.length + span.finish) :
    (outer.heading (before ++ text ++ after)).inside before.length
        text.length = span.heading text ∧
      (outer.heading (before ++ text ++ after)).IsInside before.length
        text.length := by
  have sameText :
      ((before ++ text ++ after).take outer.textEnd).drop outer.textStart =
        (text.take span.textEnd).drop span.textStart := by
    rw [textEnd_eq, textStart_eq, List.append_assoc,
      List.take_length_add_append, List.drop_length_add_append,
      List.take_append_of_le_length textEnd_le]
  have sameStart :
      lineStart (before ++ text ++ after) outer.start =
        before.length + lineStart text span.start := by
    rw [start_eq, List.append_assoc, lineStart_append_right starts,
      lineStart_append_left after start_le]
  have sameBody := nextLineStart_min after starts finish_le finish_eq
  have startBound := lineStart_le text span.start
  constructor
  · simp only [HeadingSpan.heading, Heading.inside, level_eq, sameText,
      sameStart, sameBody, Nat.add_sub_cancel_left]
  · constructor
    · simp only [HeadingSpan.heading, sameStart]
      omega
    · simp only [HeadingSpan.heading, sameStart]
      omega
    · simp only [HeadingSpan.heading]
      omega

end Piece

end ComponentDocs.Markdown
