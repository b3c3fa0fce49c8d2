import ComponentDocs.Component.Name
import ComponentDocs.Proofs.Text.Case
import ComponentDocs.Proofs.Text.Trim
import Mathlib.Data.List.Basic

/-!
How the hyphenated form of a name grows. What has been written stays, and a
name may be cut wherever no small letter follows: its parts are written one
after another. The blanks around a name do not count.
-/

namespace ComponentDocs.Name

open Text (isBlank isLowercase isUppercase lowercaseChar)

/-! ## Hyphens -/

theorem head?_writeHyphen (written : Text) :
    (writeHyphen written).head? = some '-' := by
  rw [writeHyphen]
  split
  · rename_i isHyphen
    exact beq_iff_eq.mp isHyphen
  · rfl

theorem writeHyphen_ne_nil (written : Text) : writeHyphen written ≠ [] := by
  intro empty
  have starts := head?_writeHyphen written
  simp [empty] at starts

theorem writeHyphen_of_head?_ne {written : Text}
    (ends : written.head? ≠ some '-') :
    writeHyphen written = '-' :: written := by
  rw [writeHyphen, if_neg]
  exact fun isHyphen => ends (beq_iff_eq.mp isHyphen)

theorem writeHyphen_append {written : Text} (nonempty : written ≠ [])
    (earlier : Text) :
    writeHyphen (written ++ earlier) = writeHyphen written ++ earlier := by
  rw [writeHyphen, writeHyphen, List.head?_append_of_ne_nil written nonempty]
  split <;> rfl

/-! ## Characters between words -/

/-- Whether a character may turn into a hyphen: a separator or a hyphen. -/
def isJoint (character : Char) : Bool :=
  isSeparator character || character == '-'

theorem isJoint_of_isSeparator {character : Char}
    (separates : isSeparator character = true) :
    isJoint character = true := by
  rw [isJoint, separates, Bool.true_or]

/-- A character that is neither a letter nor a digit. -/
structure IsLetterless (character : Char) : Prop where
  notSmall : isLowercase character = false
  notCapital : isUppercase character = false
  notDigit : character.isDigit = false

theorem isLetterless_of_isBlank {character : Char}
    (blank : isBlank character = true) : IsLetterless character := by
  refine ⟨?_, ?_, ?_⟩ <;> rw [Bool.eq_false_iff]
  · intro isSmall
    simp [Text.isBlank_of_isLowercase isSmall] at blank
  · intro isCapital
    simp [Text.isBlank_of_isUppercase isCapital] at blank
  · intro isDigit
    have alphanumeric : character.isAlphanum = true := by
      simp [Char.isAlphanum, isDigit]
    simp [Text.isBlank_of_isAlphanum alphanumeric] at blank

theorem isLetterless_of_isJoint {character : Char}
    (joint : isJoint character = true) : IsLetterless character := by
  have marks :
      ∀ mark ∈ ['_', '-'], isLowercase mark = false ∧
        isUppercase mark = false ∧ mark.isDigit = false := by
    decide +kernel
  simp only [isJoint, isSeparator, Bool.or_eq_true, beq_iff_eq] at joint
  rcases joint with (blank | isMark) | isMark
  · exact isLetterless_of_isBlank blank
  · obtain ⟨notSmall, notCapital, notDigit⟩ :=
      marks character (by simp [isMark])
    exact ⟨notSmall, notCapital, notDigit⟩
  · obtain ⟨notSmall, notCapital, notDigit⟩ :=
      marks character (by simp [isMark])
    exact ⟨notSmall, notCapital, notDigit⟩

theorem isLetterless_hyphen : IsLetterless '-' :=
  isLetterless_of_isJoint (by decide)

theorem startsWord_of_isJoint {joint : Char} (isJoint : isJoint joint = true)
    (next : Option Char) : startsWord (some joint) next = false := by
  have letterless := isLetterless_of_isJoint isJoint
  simp [startsWord, letterless.notSmall, letterless.notCapital,
    letterless.notDigit]

/-- Behind a character that starts no word a name is written as at its
start. -/
theorem writeKebab_some {previous : Char}
    (starts : ∀ next, startsWord (some previous) next = false)
    (written text : Text) :
    writeKebab written (some previous) text = writeKebab written none text := by
  cases text with
  | nil =>
      rfl
  | cons first rest =>
      have none_starts : startsWord none rest.head? = false := rfl
      rw [writeKebab, writeKebab, starts, none_starts]

/-! ## Names in parts -/

/-- A name may be cut where no small letter follows. -/
theorem writeKebab_append {first second : Text}
    (apart : second.head?.any isLowercase = false) (written : Text)
    (previous : Option Char) :
    writeKebab written previous (first ++ second) =
      writeKebab (writeKebab written previous first)
        (first.getLast?.or previous) second := by
  induction first generalizing written previous with
  | nil =>
      rfl
  | cons head tail inductionHypothesis =>
      have sameLast :
          (head :: tail).getLast?.or previous =
            tail.getLast?.or (some head) := by
        cases tail <;> simp [List.getLast?_cons]
      -- The last capital of the first part sees no small letter behind it.
      have sameStart :
          startsWord previous (tail ++ second).head? =
            startsWord previous tail.head? := by
        cases tail with
        | nil => cases previous <;> simp [startsWord, apart]
        | cons => rfl
      rw [List.cons_append, writeKebab, writeKebab, sameStart, sameLast]
      split
      · exact inductionHypothesis _ _
      · split
        · exact inductionHypothesis _ _
        · exact inductionHypothesis _ _

/-- Characters that are neither separators nor capitals are written as they
are, whatever stands before them. -/
theorem writeKebab_eq_append {text : Text}
    (joined : ∀ character ∈ text, isSeparator character = false)
    (small : ∀ character ∈ text, isUppercase character = false)
    (written : Text) (previous : Option Char) :
    writeKebab written previous text = text.reverse ++ written := by
  induction text generalizing written previous with
  | nil =>
      rfl
  | cons first rest inductionHypothesis =>
      obtain ⟨firstJoined, restJoined⟩ := List.forall_mem_cons.mp joined
      obtain ⟨firstSmall, restSmall⟩ := List.forall_mem_cons.mp small
      rw [writeKebab, firstJoined, firstSmall, if_neg Bool.false_ne_true,
        if_neg Bool.false_ne_true, inductionHypothesis restJoined restSmall]
      simp

/-- A hyphen is written as it is, and the name goes on as at its start. -/
theorem writeKebab_append_hyphen (written : Text) (previous : Option Char)
    (first second : Text) :
    writeKebab written previous (first ++ '-' :: second) =
      writeKebab ('-' :: writeKebab written previous first) none second := by
  have apart : ('-' :: second).head?.any isLowercase = false := by
    rw [List.head?_cons, Option.any_some, isLetterless_hyphen.notSmall]
  have joined : isSeparator '-' = false := by
    decide
  rw [writeKebab_append apart, writeKebab, joined,
    isLetterless_hyphen.notCapital, if_neg Bool.false_ne_true,
    if_neg Bool.false_ne_true,
    writeKebab_some (startsWord_of_isJoint (by decide))]

/-! ## What has been written -/

/-- What has been written is left alone once something follows it. -/
theorem writeKebab_append_written {written : Text} (nonempty : written ≠ [])
    (earlier : Text) (previous : Option Char) (text : Text) :
    writeKebab (written ++ earlier) previous text =
      writeKebab written previous text ++ earlier := by
  induction text generalizing written previous with
  | nil =>
      rfl
  | cons first rest inductionHypothesis =>
      have more : (written ++ earlier).isEmpty = false := by
        simp [nonempty]
      have some : written.isEmpty = false := by
        simp [nonempty]
      rw [writeKebab, writeKebab, more, some,
        writeHyphen_append nonempty earlier]
      simp only [Bool.false_eq_true, if_false]
      split
      · exact inductionHypothesis (writeHyphen_ne_nil written) _
      split
      · split
        · rw [← List.append_assoc]
          exact inductionHypothesis
            (List.append_ne_nil_of_right_ne_nil _
              (writeHyphen_ne_nil written)) _
        · rw [← List.append_assoc]
          exact inductionHypothesis
            (List.append_ne_nil_of_right_ne_nil _ nonempty) _
      · exact inductionHypothesis (List.cons_ne_nil _ _) _

/-- A name without separators is written alike whatever has been written
before it. -/
theorem writeKebab_none {text : Text}
    (joined : ∀ character ∈ text, isSeparator character = false)
    (earlier : Text) :
    writeKebab earlier none text = writeKebab [] none text ++ earlier := by
  cases text with
  | nil =>
      rfl
  | cons first rest =>
      have none_starts : startsWord none rest.head? = false := rfl
      have firstJoined := joined first List.mem_cons_self
      rw [writeKebab, writeKebab, none_starts, firstJoined]
      simp only [Bool.false_eq_true, if_false]
      split
      · rw [← writeKebab_append_written]
        · simp
        · simp [Text.lowercaseChar_ne_nil]
      · rw [← writeKebab_append_written (List.cons_ne_nil _ _)]
        rfl

/-- Each character that is no separator is written with one character at
least. -/
theorem length_le_writeKebab {text : Text}
    (joined : ∀ character ∈ text, isSeparator character = false)
    (written : Text) (previous : Option Char) :
    written.length + text.length ≤
      (writeKebab written previous text).length := by
  induction text generalizing written previous with
  | nil =>
      exact Nat.le_refl _
  | cons first rest inductionHypothesis =>
      obtain ⟨firstJoined, restJoined⟩ := List.forall_mem_cons.mp joined
      have positive : 0 < (lowercaseChar first).length :=
        List.length_pos_iff.mpr (Text.lowercaseChar_ne_nil first)
      have hyphenated : written.length ≤ (writeHyphen written).length := by
        rw [writeHyphen]
        split <;> simp
      rw [writeKebab, firstJoined, if_neg Bool.false_ne_true]
      split
      · refine Nat.le_trans ?_ (inductionHypothesis restJoined _ _)
        simp only [List.length_append, List.length_reverse, List.length_cons]
        split <;> omega
      · refine Nat.le_trans ?_ (inductionHypothesis restJoined _ _)
        simp only [List.length_cons]
        omega

/-! ## The ends of a name -/

/-- A name that ends with neither a separator nor a hyphen is written without a
hyphen at its end. -/
theorem head?_writeKebab_ne {text : Text} {last : Char}
    (ends : text.getLast? = some last) (visible : isJoint last = false)
    (written : Text) (previous : Option Char) :
    (writeKebab written previous text).head? ≠ some '-' := by
  induction text generalizing written previous with
  | nil =>
      cases ends
  | cons first rest inductionHypothesis =>
      cases rest with
      | cons second others =>
          have endsRest : (second :: others).getLast? = some last := by
            rw [← ends]
            rfl
          rw [writeKebab]
          split
          · exact inductionHypothesis endsRest _ _
          split
          · exact inductionHypothesis endsRest _ _
          · exact inductionHypothesis endsRest _ _
      | nil =>
          obtain rfl : first = last := by
            simpa using ends
          simp only [isJoint, Bool.or_eq_false_iff, beq_eq_false_iff_ne]
            at visible
          rw [writeKebab, visible.1, if_neg Bool.false_ne_true]
          split
          · rename_i isCapital
            rw [writeKebab, List.head?_append_of_ne_nil _
              (by simp [Text.lowercaseChar_ne_nil])]
            intro isHyphen
            have small := Text.isSmall_of_mem_lowercaseChar isCapital
              (List.mem_reverse.mp (List.mem_of_mem_head? isHyphen))
            exact small.ne_of_not_isLower (by decide) (by decide) rfl
          · simpa [writeKebab] using visible.2

/-- Separators and hyphens at the end of a name add hyphens only. -/
theorem exists_writeKebab_append_joints {ends : Text}
    (joints : ∀ character ∈ ends, isJoint character = true)
    (written : Text) (previous : Option Char) :
    ∃ hyphens : Text, (∀ character ∈ hyphens, character = '-') ∧
      writeKebab written previous ends = hyphens ++ written := by
  induction ends generalizing written previous with
  | nil =>
      exact ⟨[], by simp, rfl⟩
  | cons first rest inductionHypothesis =>
      obtain ⟨firstJoint, restJoints⟩ := List.forall_mem_cons.mp joints
      have more (hyphen : Text) {written : Text}
          (isHyphen : ∀ character ∈ hyphen, character = '-') :
          ∃ hyphens : Text, (∀ character ∈ hyphens, character = '-') ∧
            writeKebab (hyphen ++ written) (some first) rest =
              hyphens ++ written := by
        obtain ⟨hyphens, areHyphens, shape⟩ :=
          inductionHypothesis restJoints (hyphen ++ written) (some first)
        refine ⟨hyphens ++ hyphen, ?_, by rw [shape, List.append_assoc]⟩
        intro character member
        exact (List.mem_append.mp member).elim (areHyphens character)
          (isHyphen character)
      rw [writeKebab]
      split
      · split
        · exact more [] (by simp)
        · rw [writeHyphen]
          split
          · exact more [] (by simp)
          · exact more ['-'] (by simp)
      · rename_i separates
        have isHyphen : first = '-' := by
          simpa [isJoint, separates] using firstJoint
        rw [isHyphen] at more ⊢
        rw [isLetterless_hyphen.notCapital, if_neg Bool.false_ne_true]
        exact more ['-'] (by simp)

/-! ## Blanks around a name -/

theorem isJoint_of_isBlank {character : Char}
    (blank : isBlank character = true) : isJoint character = true := by
  simp [isJoint, isSeparator, blank]

/-- Blanks before a name are not written. -/
theorem writeKebab_blanks_append {blanks : Text}
    (areBlanks : ∀ character ∈ blanks, isBlank character = true)
    (text : Text) :
    writeKebab [] none (blanks ++ text) = writeKebab [] none text := by
  induction blanks with
  | nil =>
      rfl
  | cons first rest inductionHypothesis =>
      obtain ⟨firstBlank, restBlank⟩ := List.forall_mem_cons.mp areBlanks
      have separates : isSeparator first = true := by
        simp [isSeparator, firstBlank]
      rw [List.cons_append, writeKebab, if_pos separates, List.isEmpty_nil,
        if_pos rfl,
        writeKebab_some
          (startsWord_of_isJoint (isJoint_of_isSeparator separates))]
      exact inductionHypothesis restBlank

/-- Separators and hyphens at the end of what is written do not count. -/
theorem dropWhile_writeKebab_append {ends : Text}
    (joints : ∀ character ∈ ends, isJoint character = true) (text : Text) :
    (writeKebab [] none (text ++ ends)).dropWhile (· == '-') =
      (writeKebab [] none text).dropWhile (· == '-') := by
  have apart : ends.head?.any isLowercase = false := by
    cases ends with
    | nil => rfl
    | cons first rest =>
        rw [List.head?_cons, Option.any_some]
        exact (isLetterless_of_isJoint
          (joints first List.mem_cons_self)).notSmall
  obtain ⟨hyphens, areHyphens, shape⟩ :=
    exists_writeKebab_append_joints joints (writeKebab [] none text)
      (text.getLast?.or none)
  rw [writeKebab_append apart, shape, List.dropWhile_append_of_pos]
  intro character member
  exact beq_iff_eq.mpr (areHyphens character member)

/-- Trimming is left to the rules for separators. -/
theorem kebab_eq (name : Text) :
    kebab name =
      ((writeKebab [] none name).dropWhile (· == '-')).reverse := by
  obtain ⟨before, after, parts, blankBefore, blankAfter⟩ :=
    Text.exists_trim name
  have joints (character : Char) (member : character ∈ after) :
      isJoint character = true :=
    isJoint_of_isBlank (blankAfter character member)
  conv_rhs => rw [parts]
  rw [dropWhile_writeKebab_append joints,
    writeKebab_blanks_append blankBefore]
  rfl

theorem kebab_append_joints {ends : Text}
    (joints : ∀ character ∈ ends, isJoint character = true) (text : Text) :
    kebab (text ++ ends) = kebab text := by
  rw [kebab_eq, kebab_eq, dropWhile_writeKebab_append joints]

/-- Of a name that ends with neither a separator nor a hyphen nothing is
dropped. -/
theorem kebab_eq_reverse {text : Text}
    (ends : ∀ last, text.getLast? = some last → isJoint last = false) :
    kebab text = (writeKebab [] none text).reverse := by
  rw [kebab_eq]
  cases isLast : text.getLast? with
  | none =>
      rw [List.getLast?_eq_none_iff.mp isLast]
      rfl
  | some last =>
      have notHyphen :=
        head?_writeKebab_ne isLast (ends last isLast) [] none
      congr 1
      cases written : writeKebab [] none text with
      | nil => rfl
      | cons first rest =>
          rw [written, List.head?_cons] at notHyphen
          rw [List.dropWhile_cons_of_neg]
          simpa using notHyphen

end ComponentDocs.Name
