import ComponentDocs.Proofs.TypeExpression.Form
import Mathlib.Algebra.Ring.Parity
import Mathlib.Data.List.Infix

/-!
Code spans: a text whose delimiters all stand in code spans is not split. A scan
toggles at every tick, so it is in a span behind an odd number of them.
-/

namespace ComponentDocs.TypeExpression

/-! ## The state of the scan -/

/-- Whether a scan that starts in the state `inSpan` is in a code span behind a
text. -/
def endsInSpan (inSpan : Bool) : Text → Bool
  | [] => inSpan
  | character :: rest =>
      endsInSpan (if character = tick then !inSpan else inSpan) rest

/-- Ticks in pairs leave the state as it was. -/
theorem endsInSpan_eq (inSpan : Bool) (text : Text) :
    endsInSpan inSpan text = (inSpan ^^ decide (Odd (text.count tick))) := by
  induction text generalizing inSpan with
  | nil =>
      simp [endsInSpan]
  | cons character rest inductionHypothesis =>
      rw [endsInSpan, inductionHypothesis]
      by_cases isTick : character = tick
      · subst isTick
        have flipped :
            decide (Odd (rest.count tick + 1)) =
              !decide (Odd (rest.count tick)) := by
          rw [← decide_not]
          exact decide_eq_decide.mpr Nat.odd_add_one
        rw [if_pos rfl, List.count_cons_self, flipped, Bool.not_xor,
          Bool.xor_not]
      · rw [if_neg isTick, List.count_cons_of_ne isTick]

theorem endsInSpan_of_not_mem (inSpan : Bool) {text : Text}
    (noTick : tick ∉ text) : endsInSpan inSpan text = inSpan := by
  rw [endsInSpan_eq, List.count_eq_zero.mpr noTick]
  simp

theorem endsInSpan_eq_true_iff {text : Text} :
    endsInSpan false text = true ↔ Odd (text.count tick) := by
  simp [endsInSpan_eq]

theorem endsInSpan_eq_false_iff {text : Text} :
    endsInSpan false text = false ↔ Even (text.count tick) := by
  simp [endsInSpan_eq]

/-! ## Delimiters in code spans -/

/-- Every delimiter of the text stands in a code span. -/
def IsSpanned (delimiter : Char) (inSpan : Bool) (text : Text) : Prop :=
  ∀ before, before ++ [delimiter] <+: text → endsInSpan inSpan before = true

section Delimiter

variable {delimiter : Char}

theorem isSpanned_cons_iff {inSpan : Bool} {character : Char} {rest : Text} :
    IsSpanned delimiter inSpan (character :: rest) ↔
      (character = delimiter → inSpan = true) ∧
        IsSpanned delimiter (if character = tick then !inSpan else inSpan)
          rest := by
  constructor
  · intro spanned
    constructor
    · rintro rfl
      exact spanned [] (List.prefix_append [character] rest)
    · intro before starts
      apply spanned (character :: before)
      rw [List.cons_append, List.cons_prefix_cons]
      exact ⟨rfl, starts⟩
  · rintro ⟨first, others⟩ before starts
    cases before with
    | nil =>
        rw [List.nil_append, List.cons_prefix_cons] at starts
        exact first starts.1.symm
    | cons next before =>
        rw [List.cons_append, List.cons_prefix_cons] at starts
        obtain ⟨rfl, starts⟩ := starts
        exact others before starts

theorem IsSpanned.append {inSpan : Bool} {first second : Text}
    (firstSpanned : IsSpanned delimiter inSpan first)
    (secondSpanned :
      IsSpanned delimiter (endsInSpan inSpan first) second) :
    IsSpanned delimiter inSpan (first ++ second) := by
  induction first generalizing inSpan with
  | nil =>
      exact secondSpanned
  | cons character first inductionHypothesis =>
      rw [isSpanned_cons_iff] at firstSpanned
      rw [List.cons_append, isSpanned_cons_iff]
      exact ⟨firstSpanned.1,
        inductionHypothesis firstSpanned.2 secondSpanned⟩

theorem isSpanned_of_not_mem (inSpan : Bool) {text : Text}
    (absent : delimiter ∉ text) : IsSpanned delimiter inSpan text := by
  intro before starts
  exact absurd (starts.subset (by simp)) absent

/-- Within one code span anything may stand. -/
theorem isSpanned_of_noTick {text : Text} (noTick : tick ∉ text) :
    IsSpanned delimiter true text := by
  intro before starts
  apply endsInSpan_of_not_mem
  intro inBefore
  exact noTick (starts.subset (List.mem_append_left _ inBefore))

/-- A code span behind a text without delimiters. -/
theorem isSpanned_append_span (before : Text) {content : Text}
    (notTick : delimiter ≠ tick) (absent : delimiter ∉ before)
    (noTickBefore : tick ∉ before) (noTick : tick ∉ content) :
    IsSpanned delimiter false (before ++ tick :: (content ++ [tick])) := by
  apply (isSpanned_of_not_mem false absent).append
  rw [endsInSpan_of_not_mem false noTickBefore, isSpanned_cons_iff]
  constructor
  · intro isDelimiter
    exact absurd isDelimiter.symm notTick
  · apply (isSpanned_of_noTick noTick).append
    apply isSpanned_of_not_mem
    simpa using notTick

/-- What stands behind a text without open delimiters is split as if the scan
began there. -/
theorem splitOutsideSpans_append {inSpan : Bool} {text : Text}
    (spanned : IsSpanned delimiter inSpan text) (rest : Text) :
    splitOutsideSpans delimiter inSpan (text ++ rest) =
      text.foldr extendFirst
        (splitOutsideSpans delimiter (endsInSpan inSpan text) rest) := by
  induction text generalizing inSpan with
  | nil =>
      rfl
  | cons character text inductionHypothesis =>
      rw [isSpanned_cons_iff] at spanned
      rw [List.cons_append, splitOutsideSpans, endsInSpan, List.foldr_cons]
      by_cases isTick : character = tick
      · rw [if_pos isTick] at spanned
        rw [if_pos (beq_iff_eq.mpr isTick), if_pos isTick,
          inductionHypothesis spanned.2]
      · have notOpen : ¬ (character == delimiter && !inSpan) = true := by
          intro isOpen
          obtain ⟨isDelimiter, outside⟩ :
              character = delimiter ∧ inSpan = false := by
            simpa using isOpen
          rw [spanned.1 isDelimiter] at outside
          exact absurd outside (by decide)
        rw [if_neg isTick] at spanned
        rw [if_neg (mt beq_iff_eq.mp isTick), if_neg notOpen, if_neg isTick,
          inductionHypothesis spanned.2]

theorem splitOutsideSpans_eq_singleton {inSpan : Bool} {text : Text}
    (spanned : IsSpanned delimiter inSpan text) :
    splitOutsideSpans delimiter inSpan text = [text] := by
  have whole := splitOutsideSpans_append spanned []
  rw [List.append_nil, splitOutsideSpans, foldr_extendFirst, List.append_nil]
    at whole
  exact whole

/-- The first piece starts where the text starts, and the others outside of
code spans; none of them is split again. -/
theorem isSpanned_of_splitOutsideSpans (notTick : delimiter ≠ tick)
    {inSpan : Bool} {text first : Text} {others : List Text}
    (pieces : splitOutsideSpans delimiter inSpan text = first :: others) :
    IsSpanned delimiter inSpan first ∧
      ∀ piece ∈ others, IsSpanned delimiter false piece := by
  fun_induction splitOutsideSpans delimiter inSpan text
      generalizing first others with
  | case1 inSpan =>
      obtain ⟨rfl, rfl⟩ := List.cons.inj pieces
      exact ⟨isSpanned_of_not_mem inSpan List.not_mem_nil, by simp⟩
  | case2 inSpan character rest isTick inductionHypothesis =>
      obtain ⟨next, further, shape⟩ := List.exists_cons_of_ne_nil
        (splitOutsideSpans_ne_nil delimiter (!inSpan) rest)
      rw [shape] at pieces
      obtain ⟨rfl, rfl⟩ := List.cons.inj pieces
      obtain ⟨nextSpanned, furtherSpanned⟩ := inductionHypothesis shape
      obtain rfl := eq_of_beq isTick
      refine ⟨isSpanned_cons_iff.mpr ⟨?_, ?_⟩, furtherSpanned⟩
      · intro isDelimiter
        exact absurd isDelimiter.symm notTick
      · rw [if_pos rfl]
        exact nextSpanned
  | case3 inSpan character rest _ isSplit inductionHypothesis =>
      obtain ⟨next, further, shape⟩ := List.exists_cons_of_ne_nil
        (splitOutsideSpans_ne_nil delimiter inSpan rest)
      obtain ⟨nextSpanned, furtherSpanned⟩ := inductionHypothesis shape
      obtain ⟨-, rfl⟩ : character = delimiter ∧ inSpan = false := by
        simpa using isSplit
      rw [shape] at pieces
      obtain ⟨rfl, rfl⟩ := List.cons.inj pieces
      exact ⟨isSpanned_of_not_mem false List.not_mem_nil,
        List.forall_mem_cons.mpr ⟨nextSpanned, furtherSpanned⟩⟩
  | case4 inSpan character rest isOther notSplit inductionHypothesis =>
      obtain ⟨next, further, shape⟩ := List.exists_cons_of_ne_nil
        (splitOutsideSpans_ne_nil delimiter inSpan rest)
      rw [shape] at pieces
      obtain ⟨rfl, rfl⟩ := List.cons.inj pieces
      obtain ⟨nextSpanned, furtherSpanned⟩ := inductionHypothesis shape
      refine ⟨isSpanned_cons_iff.mpr ⟨?_, ?_⟩, furtherSpanned⟩
      · rintro rfl
        simpa using notSplit
      · rw [if_neg (by simpa using isOther)]
        exact nextSpanned

/-- A part of a text with no tick before it is spanned as the text is. -/
theorem IsSpanned.part {inSpan : Bool} {before text after : Text}
    (spanned : IsSpanned delimiter inSpan (before ++ text ++ after))
    (noTick : tick ∉ before) : IsSpanned delimiter inSpan text := by
  intro first starts
  have inWhole : before ++ first ++ [delimiter] <+: before ++ text ++ after := by
    rw [List.append_assoc, List.append_assoc]
    exact (List.prefix_append_right_inj before).mpr
      (starts.trans (List.prefix_append text after))
  have state := spanned (before ++ first) inWhole
  rw [endsInSpan_eq, List.count_append, List.count_eq_zero.mpr noTick,
    Nat.zero_add, ← endsInSpan_eq] at state
  exact state

theorem IsSpanned.trim {inSpan : Bool} {text : Text}
    (spanned : IsSpanned delimiter inSpan text) :
    IsSpanned delimiter inSpan (Text.trim text) := by
  obtain ⟨before, after, parts, blankBefore, -⟩ := Text.exists_trim text
  rw [parts] at spanned
  apply spanned.part
  intro member
  exact absurd (blankBefore tick member) (by decide)

end Delimiter

/-! ## Slashes in code spans -/

/-- No piece between slashes has a slash of its own outside of code spans. -/
theorem isSpanned_of_mem_slashPieces {text piece : Text}
    (member : piece ∈ slashPieces text) : IsSpanned '/' false piece := by
  obtain ⟨first, others, shape⟩ := List.exists_cons_of_ne_nil
    (splitOutsideSpans_ne_nil '/' false text)
  obtain ⟨firstSpanned, othersSpanned⟩ :=
    isSpanned_of_splitOutsideSpans (by decide) shape
  rw [slashPieces, shape] at member
  rcases List.mem_cons.mp member with rfl | isOther
  · exact firstSpanned
  · exact othersSpanned piece isOther

/-- A text whose slashes all stand in code spans is one piece. -/
theorem slashPieces_eq_singleton {text : Text}
    (spanned : IsSpanned '/' false text) : slashPieces text = [text] :=
  splitOutsideSpans_eq_singleton spanned

theorem normalForm_of_isSpanned {text : Text}
    (trimmed : Text.trim text = text) (spanned : IsSpanned '/' false text) :
    normalForm text = pieceForm text := by
  have single : (slashPieces (Text.trim text)).length ≤ 1 := by
    rw [trimmed, slashPieces_eq_singleton spanned]
    exact Nat.le_refl 1
  rw [normalForm_of_piece single, trimmed]

end ComponentDocs.TypeExpression
