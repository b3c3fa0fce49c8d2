import ComponentDocs.Proofs.Text.Escape
import ComponentDocs.Proofs.TypeExpression.Search
import ComponentDocs.Proofs.TypeExpression.Span

/-!
Marked code spans: a bracket `^[function]`, `^[object]` or `^[enum]` in any case,
blanks, and a code span. What the span holds is the literal, whatever slashes,
pipes, brackets and other markers stand in it.
-/

namespace ComponentDocs.TypeExpression

open Signature (IsClosed)

/-! ## Markers -/

/-- The bracket of a marker as it is spelled, blanks, and a code span. -/
def markedText (spelled blanks content : Text) : Text :=
  opening ++ (spelled ++ ']' :: (blanks ++ tick :: (content ++ [tick])))

def markerNames : List Text :=
  [functionMarker, objectMarker, enumMarker]

/-- The signs that the scans stop at. -/
def markerSigns : Text :=
  ['^', ']', '/', tick]

/-- The parts of a code span that is marked with `name`: the name in any case,
blanks, and a content without ticks. -/
structure IsMarked (name spelled blanks content : Text) : Prop where
  isName : name ∈ markerNames
  named : spelled.map Char.toLower = name
  blank : ∀ character ∈ blanks, Text.isBlank character = true
  noTick : tick ∉ content

/-- No spelling of a marker has one of the signs. -/
theorem not_mem_spelled {name spelled : Text} {sign : Char}
    (isName : name ∈ markerNames) (named : spelled.map Char.toLower = name)
    (isSign : sign ∈ markerSigns) : sign ∉ spelled := by
  have signless :
      ∀ name ∈ markerNames, ∀ sign ∈ markerSigns, sign.toLower ∉ name := by
    decide
  intro member
  apply signless name isName sign isSign
  rw [← named]
  exact List.mem_map_of_mem member

/-- A text has one spelling before its first `]`. -/
theorem eq_of_append_bracket {first second rest others : Text}
    (notFirst : ']' ∉ first) (notSecond : ']' ∉ second)
    (same : first ++ ']' :: rest = second ++ ']' :: others) :
    first = second := by
  have heads := congrArg (List.takeWhile (· != ']')) same
  rw [Text.takeWhile_append_stop notFirst,
    Text.takeWhile_append_stop notSecond] at heads
  exact heads

namespace IsMarked

variable {name spelled blanks content : Text}
  (marked : IsMarked name spelled blanks content)

include marked

theorem not_mem_mark {sign : Char} (isSign : sign ∈ markerSigns) :
    sign ∉ spelled ∧ sign ∉ blanks := by
  have visible : ∀ sign ∈ markerSigns, Text.isBlank sign = false := by
    decide
  constructor
  · exact not_mem_spelled marked.isName marked.named isSign
  · intro member
    have isBlank := marked.blank sign member
    rw [visible sign isSign] at isBlank
    exact absurd isBlank (by decide)

/-- The marker of the span is found, and with it the content. -/
theorem markedSpan?_eq :
    markedSpan? name (markedText spelled blanks content) = some content := by
  have after :
      afterMarker? name (markedText spelled blanks content) =
        some (blanks ++ tick :: (content ++ [tick])) :=
    afterMarker?_eq_some_iff.mpr ⟨spelled, marked.named, rfl⟩
  have started :
      Text.trimStart (blanks ++ tick :: (content ++ [tick])) =
        tick :: (content ++ [tick]) := by
    rw [Text.trimStart, List.dropWhile_append_of_pos marked.blank,
      List.dropWhile_cons_of_neg (by decide)]
  apply firstAt?_of_eq_some
  rw [after, Option.bind_some, started]
  exact spanAtStart?_append marked.noTick []

/-- Another marker is not found, also when the content has its bracket: behind
that bracket there is one tick only. -/
theorem markedSpan?_eq_none (other : Text) (isOther : other ∈ markerNames)
    (different : other ≠ name) :
    markedSpan? other (markedText spelled blanks content) = none := by
  obtain ⟨notSpelled, notBlank⟩ : '^' ∉ spelled ∧ '^' ∉ blanks :=
    marked.not_mem_mark (by decide)
  have notHere :
      afterMarker? other (markedText spelled blanks content) = none := by
    apply Option.eq_none_iff_forall_ne_some.mpr
    intro after found
    obtain ⟨spelling, isSpelling, same⟩ := afterMarker?_eq_some_iff.mp found
    have spellings : spelled = spelling :=
      eq_of_append_bracket (marked.not_mem_mark (by decide)).1
        (not_mem_spelled isOther isSpelling (by decide))
        (List.append_cancel_left same)
    apply different
    rw [← isSpelling, ← marked.named, spellings]
  have passed : '^' ∉ '[' :: (spelled ++ ']' :: (blanks ++ [tick])) := by
    have notTick : '^' ≠ tick := by decide
    simp [notSpelled, notBlank, notTick]
  have parts :
      markedText spelled blanks content =
        '^' :: ('[' :: (spelled ++ ']' :: (blanks ++ [tick])) ++
          (content ++ [tick])) := by
    simp [markedText, opening]
  have few : (content ++ [tick]).count tick ≤ 1 := by
    rw [List.count_append, List.count_eq_zero.mpr marked.noTick]
    decide
  have later := (markedSpan?_append other passed (content ++ [tick])).trans
    (markedSpan?_of_few other few)
  rw [markedSpan?, parts, firstAt?, ← parts, notHere]
  exact later

/-- The slashes of a marked code span stand in the span. -/
theorem isSpanned : IsSpanned '/' false (markedText spelled blanks content) := by
  have absent {sign : Char} (isSign : sign ∈ markerSigns)
      (notBracket : sign ∉ opening ++ [']']) :
      sign ∉ opening ++ (spelled ++ ']' :: blanks) := by
    obtain ⟨notSpelled, notBlank⟩ := marked.not_mem_mark isSign
    rw [List.mem_append, not_or, List.mem_singleton] at notBracket
    simp [notBracket, notSpelled, notBlank]
  have parts :
      markedText spelled blanks content =
        opening ++ (spelled ++ ']' :: blanks) ++
          tick :: (content ++ [tick]) := by
    simp [markedText]
  rw [parts]
  exact isSpanned_append_span _ (by decide) (absent (by decide) (by decide))
    (absent (by decide) (by decide)) marked.noTick

omit marked in
theorem trim_markedText :
    Text.trim (markedText spelled blanks content) =
      markedText spelled blanks content := by
  have parts :
      markedText spelled blanks content =
        opening ++ (spelled ++ ']' :: (blanks ++ tick :: content)) ++
          [tick] := by
    simp [markedText]
  rw [parts]
  exact Text.trim_append_eq_self _ (by decide) (by decide) (by decide)
    (by decide)

theorem normalForm_eq :
    normalForm (markedText spelled blanks content) =
      pieceForm (markedText spelled blanks content) :=
  normalForm_of_isSpanned trim_markedText marked.isSpanned

end IsMarked

/-! ## Literals -/

section Literal

variable {spelled blanks content : Text}

theorem normalForm_function
    (marked : IsMarked functionMarker spelled blanks content) :
    normalForm (markedText spelled blanks content) =
      .literal (stripParentheses (Text.trim (Text.unescapePipes content))) := by
  rw [marked.normalForm_eq, pieceForm_of_function marked.markedSpan?_eq]

theorem normalForm_object
    (marked : IsMarked objectMarker spelled blanks content) :
    normalForm (markedText spelled blanks content) = .literal content := by
  have noFunction := marked.markedSpan?_eq_none functionMarker (by decide)
    (by decide)
  rw [marked.normalForm_eq,
    pieceForm_of_object noFunction marked.markedSpan?_eq]

theorem normalForm_enum (marked : IsMarked enumMarker spelled blanks content) :
    normalForm (markedText spelled blanks content) =
      .literal (Text.unescapePipes content) := by
  have noFunction := marked.markedSpan?_eq_none functionMarker (by decide)
    (by decide)
  have noObject := marked.markedSpan?_eq_none objectMarker (by decide)
    (by decide)
  rw [marked.normalForm_eq,
    pieceForm_of_enum noFunction noObject marked.markedSpan?_eq]

end Literal

/-- What stands in a marked code span is recovered: with its pipes escaped in a
list of literals, word for word in an object shape, and with its pipes escaped
in a closed signature, from which parentheses around all of it are stripped. -/
theorem normalForm_markedText {spelled blanks body : Text}
    (blank : ∀ character ∈ blanks, Text.isBlank character = true)
    (noTick : tick ∉ body) :
    (spelled.map Char.toLower = enumMarker →
        normalForm (markedText spelled blanks (Text.escapePipes body)) =
          .literal body) ∧
      (spelled.map Char.toLower = objectMarker →
        normalForm (markedText spelled blanks body) = .literal body) ∧
      (spelled.map Char.toLower = functionMarker →
        Text.trim body = body → IsClosed body →
          (∀ inside, body = '(' :: (inside ++ [')']) → IsClosed inside →
            normalForm (markedText spelled blanks (Text.escapePipes body)) =
              .literal (Text.trim inside)) ∧
          ((∀ inside, body = '(' :: (inside ++ [')']) → ¬ IsClosed inside) →
            normalForm (markedText spelled blanks (Text.escapePipes body)) =
              .literal body)) := by
  have noTickEscaped : tick ∉ Text.escapePipes body := by
    intro member
    exact noTick (Text.mem_escapePipes (by decide) member)
  refine ⟨?_, ?_, ?_⟩
  · intro isEnum
    rw [normalForm_enum ⟨by decide, isEnum, blank, noTickEscaped⟩,
      Text.unescapePipes_escapePipes]
  · intro isObject
    exact normalForm_object ⟨by decide, isObject, blank, noTick⟩
  · intro isFunction trimmed closed
    have signature :
        normalForm (markedText spelled blanks (Text.escapePipes body)) =
          .literal (stripParentheses body) := by
      rw [normalForm_function ⟨by decide, isFunction, blank, noTickEscaped⟩,
        Text.unescapePipes_escapePipes, trimmed]
    rw [signature]
    constructor
    · rintro inside rfl closedInside
      rw [stripParentheses_around_closed closedInside]
    · intro notAround
      rw [stripParentheses_eq_self closed notAround]

/-- A list of literals that names another marker, a shape with a slash, and two
signatures, of which parentheses stand around all of the first only. -/
theorem markedTexts_literal :
    normalForm "^[eNum] \x60'a/b' \\| ^[object]\x60".toList =
        .literal "'a/b' | ^[object]".toList ∧
      normalForm "^[OBJECT]\x60a / b \\| c\x60".toList =
        .literal "a / b \\| c".toList ∧
      normalForm "^[Function]\t\x60((a: A \\| B) => C )\x60".toList =
        .literal "(a: A | B) => C".toList ∧
      normalForm "^[function]\x60(a) => (b)\x60".toList =
        .literal "(a) => (b)".toList := by
  have isEnum : "^[eNum] \x60'a/b' \\| ^[object]\x60".toList =
      markedText "eNum".toList [' ']
        (Text.escapePipes "'a/b' | ^[object]".toList) := by
    decide
  have isObject : "^[OBJECT]\x60a / b \\| c\x60".toList =
      markedText "OBJECT".toList [] "a / b \\| c".toList := by
    decide
  have isWrapped : "^[Function]\t\x60((a: A \\| B) => C )\x60".toList =
      markedText "Function".toList ['\t']
        (Text.escapePipes "((a: A | B) => C )".toList) := by
    decide
  have isFunction : "^[function]\x60(a) => (b)\x60".toList =
      markedText "function".toList []
        (Text.escapePipes "(a) => (b)".toList) := by
    decide
  -- What stands between the outer parentheses closes one that is not open.
  have notAround : ∀ inside, "(a) => (b)".toList = '(' :: (inside ++ [')']) →
      ¬ IsClosed inside := by
    intro inside whole
    have sameInside : inside = "a) => (b".toList := by
      have tails := congrArg (fun text => text.tail.dropLast) whole
      simpa using tails.symm
    rw [sameInside]
    decide
  rw [isEnum, isObject, isWrapped, isFunction]
  refine ⟨?_, ?_, ?_, ?_⟩
  · exact (normalForm_markedText (by decide) (by decide)).1 (by decide)
  · exact (normalForm_markedText (by decide) (by decide)).2.1 (by decide)
  · have stripped :
        Text.trim "(a: A | B) => C ".toList = "(a: A | B) => C".toList := by
      decide
    rw [← stripped]
    exact ((normalForm_markedText (by decide) (by decide)).2.2 (by decide)
      (by decide) (by decide)).1 _ rfl (by decide)
  · exact ((normalForm_markedText (by decide) (by decide)).2.2 (by decide)
      (by decide) (by decide)).2 notAround

end ComponentDocs.TypeExpression
