import ComponentDocs.Text.Basic
import Mathlib.Data.List.DropRight

/-!
Trimming: a text between visible characters stands as it is, and blanks around
a text do not count.
-/

namespace ComponentDocs.Text

theorem dropEndWhile_eq_rdropWhile (test : Char → Bool) (text : Text) :
    dropEndWhile test text = text.rdropWhile test :=
  rfl

@[simp]
theorem dropEndWhile_nil (test : Char → Bool) : dropEndWhile test [] = [] :=
  rfl

theorem dropEndWhile_concat (test : Char → Bool) (text : Text)
    (last : Char) :
    dropEndWhile test (text ++ [last]) =
      if test last then dropEndWhile test text else text ++ [last] :=
  List.rdropWhile_concat test text last

theorem dropEndWhile_append (test : Char → Bool) (text : Text) {rest : Text}
    (passes : ∀ character ∈ rest, test character = true) :
    dropEndWhile test (text ++ rest) = dropEndWhile test text := by
  induction rest using List.reverseRecOn with
  | nil =>
      rw [List.append_nil]
  | append_singleton rest last inductionHypothesis =>
      rw [← List.append_assoc, dropEndWhile_concat,
        if_pos (passes last (by simp))]
      exact inductionHypothesis fun character member =>
        passes character (List.mem_append_left _ member)

/-- The text is what is kept of it and an end that passes the test. -/
theorem exists_dropEndWhile_append (test : Char → Bool) (text : Text) :
    ∃ rest : Text,
      text = dropEndWhile test text ++ rest ∧
        ∀ character ∈ rest, test character = true :=
  ⟨text.rtakeWhile test,
    (List.rdropWhile_append_rtakeWhile (p := test) (l := text)).symm,
    fun _ member => List.mem_rtakeWhile_imp member⟩

theorem dropEndWhile_eq_self {test : Char → Bool} {text : Text}
    (stops : ∀ last, text.getLast? = some last → test last = false) :
    dropEndWhile test text = text := by
  rw [dropEndWhile_eq_rdropWhile, List.rdropWhile_eq_self_iff]
  intro nonempty
  rw [stops _ (List.getLast?_eq_some_getLast nonempty)]
  decide

theorem getLast?_dropEndWhile {test : Char → Bool} {text : Text} {last : Char}
    (ends : (dropEndWhile test text).getLast? = some last) :
    test last = false := by
  have nonempty : text.rdropWhile test ≠ [] := by
    intro empty
    rw [dropEndWhile_eq_rdropWhile, empty] at ends
    exact absurd ends (by simp)
  have fails := List.rdropWhile_last_not test text nonempty
  rw [dropEndWhile_eq_rdropWhile, List.getLast?_eq_some_getLast nonempty,
    Option.some.injEq] at ends
  rw [← ends]
  simpa using fails

/-- Nothing is dropped before a character that fails the test. -/
theorem dropEndWhile_append_of_stops {test : Char → Bool} {first : Text}
    (stops : ∀ last, first.getLast? = some last → test last = false)
    (rest : Text) :
    dropEndWhile test (first ++ rest) = first ++ dropEndWhile test rest := by
  induction rest using List.reverseRecOn with
  | nil =>
      rw [dropEndWhile_nil, List.append_nil, dropEndWhile_eq_self stops]
  | append_singleton rest last inductionHypothesis =>
      rw [← List.append_assoc, dropEndWhile_concat, dropEndWhile_concat,
        inductionHypothesis, List.append_assoc]
      split <;> rfl

/-! ## Blanks -/

theorem isBlank_of_mem_space {character : Char} (member : character ∈ [' ']) :
    isBlank character = true := by
  rw [List.mem_singleton.mp member]
  rfl

theorem isBlank_of_mem_feed {character : Char}
    (member : character ∈ ['\n']) : isBlank character = true := by
  rw [List.mem_singleton.mp member]
  rfl

theorem trim_eq_self {text : Text}
    (starts : ∀ first, text.head? = some first → isBlank first = false)
    (ends : ∀ last, text.getLast? = some last → isBlank last = false) :
    trim text = text := by
  have started : trimStart text = text := by
    cases text with
    | nil =>
        rfl
    | cons first rest =>
        simp [trimStart, starts first rfl]
  rw [trim, started]
  exact dropEndWhile_eq_self ends

theorem trim_eq_self_of_visible {text : Text}
    (visible : ∀ character ∈ text, isBlank character = false) :
    trim text = text :=
  trim_eq_self (fun first starts => visible first (List.mem_of_head? starts))
    fun last ends => visible last (List.mem_of_getLast? ends)

/-- Blanks around a text do not count. -/
theorem trim_append_append (before : Text) {after : Text}
    (blankBefore : ∀ character ∈ before, isBlank character = true)
    (text : Text)
    (blankAfter : ∀ character ∈ after, isBlank character = true) :
    trim (before ++ text ++ after) = trim text := by
  have started :
      trimStart (before ++ text ++ after) = trimStart (text ++ after) := by
    rw [trimStart, List.append_assoc,
      List.dropWhile_append_of_pos blankBefore]
    rfl
  rw [trim, started]
  by_cases allBlank : ∀ character ∈ text, isBlank character = true
  · have whole : trimStart (text ++ after) = [] :=
      List.dropWhile_eq_nil_iff.mpr fun character member =>
        (List.mem_append.mp member).elim (allBlank character)
          (blankAfter character)
    have part : trimStart text = [] :=
      List.dropWhile_eq_nil_iff.mpr allBlank
    rw [whole, trim, part]
  · have visible : text.dropWhile isBlank ≠ [] := fun empty =>
      allBlank (List.dropWhile_eq_nil_iff.mp empty)
    have moved :
        trimStart (text ++ after) = trimStart text ++ after := by
      rw [trimStart, List.dropWhile_append]
      simp [visible, trimStart]
    rw [moved, trimEnd, dropEndWhile_append _ _ blankAfter]
    rfl

@[simp]
theorem trim_cons_space (text : Text) : trim (' ' :: text) = trim text := by
  rw [trim, trimStart, List.dropWhile_cons_of_pos (by decide)]
  rfl

theorem trim_dropEndWhile (text : Text) :
    trim (dropEndWhile isBlank text) = trim text := by
  obtain ⟨rest, parts, blank⟩ := exists_dropEndWhile_append isBlank text
  have same := trim_append_append [] (by simp)
    (dropEndWhile isBlank text) blank
  rw [List.nil_append, ← parts] at same
  exact same.symm

theorem trim_eq_nil_iff {text : Text} :
    trim text = [] ↔ ∀ character ∈ text, isBlank character = true := by
  have reversed :
      trim text = [] ↔
        ∀ character ∈ trimStart text, isBlank character = true :=
    List.rdropWhile_eq_nil_iff
  rw [reversed]
  constructor
  · intro blank character member
    rw [← List.takeWhile_append_dropWhile (p := isBlank) (l := text),
      List.mem_append] at member
    rcases member with inStart | inRest
    · exact List.mem_takeWhile_imp inStart
    · exact blank character inRest
  · intro blank character member
    exact blank character ((List.dropWhile_suffix isBlank).subset member)

theorem words_eq_nil_iff {text : Text} :
    words text = [] ↔ ∀ character ∈ text, isBlank character = true := by
  induction text with
  | nil =>
      simp [words]
  | cons first rest inductionHypothesis =>
      rw [words, List.splitOnP_cons_eq_if_modifyHead, List.forall_mem_cons]
      by_cases blank : isBlank first = true
      · rw [if_pos blank, ← inductionHypothesis]
        simp [blank, words]
      · obtain ⟨word, others, shape⟩ :=
          List.exists_cons_of_ne_nil (List.splitOnP_ne_nil isBlank rest)
        rw [if_neg blank, shape]
        simp [blank]

/-- A text is its trimmed form between blanks. -/
theorem exists_trim (text : Text) :
    ∃ before after : Text,
      text = before ++ trim text ++ after ∧
        (∀ character ∈ before, isBlank character = true) ∧
        ∀ character ∈ after, isBlank character = true := by
  obtain ⟨after, kept, blankAfter⟩ :=
    exists_dropEndWhile_append isBlank (trimStart text)
  refine ⟨text.takeWhile isBlank, after, ?_, ?_, blankAfter⟩
  · calc
      text = text.takeWhile isBlank ++ text.dropWhile isBlank :=
        List.takeWhile_append_dropWhile.symm
      _ = text.takeWhile isBlank ++ (trim text ++ after) :=
        congrArg _ kept
      _ = _ := (List.append_assoc _ _ _).symm
  · intro character member
    exact List.mem_takeWhile_imp member

theorem trim_isInfix (text : Text) : trim text <:+: text := by
  obtain ⟨before, after, parts, -, -⟩ := exists_trim text
  exact ⟨before, after, parts.symm⟩

theorem trim_subset (text : Text) : trim text ⊆ text :=
  (trim_isInfix text).subset

/-- Trimming takes away nothing but blanks. -/
theorem mem_trim_iff {text : Text} {character : Char}
    (visible : isBlank character = false) :
    character ∈ trim text ↔ character ∈ text := by
  obtain ⟨before, after, parts, blankBefore, blankAfter⟩ := exists_trim text
  constructor
  · exact fun member => trim_subset text member
  · intro member
    rw [parts] at member
    rcases List.mem_append.mp member with inFront | isAfter
    · rcases List.mem_append.mp inFront with isBefore | inside
      · exact absurd (blankBefore character isBefore) (by simp [visible])
      · exact inside
    · exact absurd (blankAfter character isAfter) (by simp [visible])

theorem head?_trim {text : Text} {first : Char}
    (starts : (trim text).head? = some first) : isBlank first = false := by
  obtain ⟨rest, kept, -⟩ :=
    exists_dropEndWhile_append isBlank (trimStart text)
  have started : (trimStart text).head? = some first := by
    rw [kept]
    change (trim text ++ rest).head? = some first
    rw [List.head?_append, starts]
    rfl
  have fails := List.head?_dropWhile_not isBlank text
  unfold trimStart at started
  rw [started] at fails
  simpa using fails

theorem getLast?_trim {text : Text} {last : Char}
    (ends : (trim text).getLast? = some last) : isBlank last = false :=
  getLast?_dropEndWhile ends

@[simp]
theorem trim_trim (text : Text) : trim (trim text) = trim text :=
  trim_eq_self (fun _ => head?_trim) fun _ => getLast?_trim

/-- A text that stands as it is has visible ends. -/
theorem trim_eq_self_iff {text : Text} :
    trim text = text ↔
      (∀ first, text.head? = some first → isBlank first = false) ∧
        ∀ last, text.getLast? = some last → isBlank last = false := by
  constructor
  · intro trimmed
    rw [← trimmed]
    exact ⟨fun _ => head?_trim, fun _ => getLast?_trim⟩
  · rintro ⟨starts, ends⟩
    exact trim_eq_self starts ends

theorem trimEnd_eq_self {text : Text} (trimmed : trim text = text) :
    trimEnd text = text :=
  dropEndWhile_eq_self (trim_eq_self_iff.mp trimmed).2

/-- Between trimmed texts nothing is trimmed. -/
theorem trim_append_eq_self {first last : Text} (middle : Text)
    (firstTrimmed : trim first = first) (firstNonempty : first ≠ [])
    (lastTrimmed : trim last = last) (lastNonempty : last ≠ []) :
    trim (first ++ middle ++ last) = first ++ middle ++ last := by
  obtain ⟨head, rest, rfl⟩ := List.exists_cons_of_ne_nil firstNonempty
  obtain ⟨before, final, rfl⟩ :=
    (List.eq_nil_or_concat' last).resolve_left lastNonempty
  apply trim_eq_self
  · intro character starts
    exact (trim_eq_self_iff.mp firstTrimmed).1 character starts
  · intro character ends
    rw [← List.append_assoc, List.getLast?_concat] at ends
    apply (trim_eq_self_iff.mp lastTrimmed).2 character
    rw [List.getLast?_concat, ends]

end ComponentDocs.Text
