import ComponentDocs.Proofs.Component.Hyphenation

/-!
Hyphenated names and tags, whatever the name and the configured start are: a
hyphenated name has neither blanks nor underscores and does not end in a
hyphen, and a tag neither starts nor ends with a blank. Where capitals have
small lowercase forms, hyphenation leaves a hyphenated name as it is.
-/

namespace ComponentDocs.Name

open Text (isBlank isUppercase lowercaseChar)

/-! ## Hyphenated names -/

/-- What may stand in the hyphenated form of a name: a hyphen, a character of
the name that is neither a separator nor a capital, or a character of the
lowercase form of a capital. -/
inductive IsWrittenFor (name : Text) : Char → Prop
  | hyphen : IsWrittenFor name '-'
  | kept {character : Char} : character ∈ name →
      isSeparator character = false → isUppercase character = false →
      IsWrittenFor name character
  | lowered {capital character : Char} : capital ∈ name →
      isUppercase capital = true → character ∈ lowercaseChar capital →
      IsWrittenFor name character

theorem IsWrittenFor.mono {name other : Text} {character : Char}
    (written : IsWrittenFor name character) (subset : name ⊆ other) :
    IsWrittenFor other character := by
  cases written with
  | hyphen => exact .hyphen
  | kept member separates capital =>
      exact .kept (subset member) separates capital
  | lowered member capital lowered =>
      exact .lowered (subset member) capital lowered

theorem mem_writeHyphen {written : Text} {character : Char}
    (member : character ∈ writeHyphen written) :
    character = '-' ∨ character ∈ written := by
  unfold writeHyphen at member
  split at member
  · exact Or.inr member
  · exact List.mem_cons.mp member

theorem mem_writeKebab {written : Text} {previous : Option Char}
    {text : Text} {character : Char}
    (member : character ∈ writeKebab written previous text) :
    character ∈ written ∨ IsWrittenFor text character := by
  have later {first : Char} {rest : Text}
      (written : IsWrittenFor rest character) :
      IsWrittenFor (first :: rest) character :=
    written.mono (List.subset_cons_self first rest)
  have ofHyphen {written text : Text}
      (member : character ∈ writeHyphen written) :
      character ∈ written ∨ IsWrittenFor text character := by
    rcases mem_writeHyphen member with rfl | before
    · exact Or.inr .hyphen
    · exact Or.inl before
  fun_induction writeKebab written previous text with
  | case1 written previous =>
      exact Or.inl member
  | case2 written previous first rest separates inductionHypothesis =>
      rcases inductionHypothesis member with before | after
      · split at before
        · exact Or.inl before
        · exact ofHyphen before
      · exact Or.inr (later after)
  | case3 written previous first rest separates isCapital started
      inductionHypothesis =>
      rcases inductionHypothesis member with before | after
      · rcases List.mem_append.mp before with lowered | before
        · exact Or.inr <| .lowered List.mem_cons_self isCapital <|
            List.mem_reverse.mp lowered
        · simp only [started] at before
          split at before
          · exact ofHyphen before
          · exact Or.inl before
      · exact Or.inr (later after)
  | case4 written previous first rest separates isCapital
      inductionHypothesis =>
      rcases inductionHypothesis member with before | after
      · rcases List.mem_cons.mp before with rfl | before
        · exact Or.inr <| .kept List.mem_cons_self
            (eq_false_of_ne_true separates) (eq_false_of_ne_true isCapital)
        · exact Or.inl before
      · exact Or.inr (later after)

theorem mem_kebab {name : Text} {character : Char}
    (member : character ∈ kebab name) : IsWrittenFor name character := by
  have written :
      character ∈ writeKebab [] none (Text.trim name) :=
    (List.dropWhile_suffix _).subset (List.mem_reverse.mp member)
  rcases mem_writeKebab written with none | ofTrimmed
  · exact absurd none List.not_mem_nil
  · exact ofTrimmed.mono (Text.trim_subset name)

/-- A hyphenated name has neither blanks nor underscores. -/
theorem isSeparator_of_mem_kebab {name : Text} {character : Char}
    (member : character ∈ kebab name) : isSeparator character = false := by
  cases mem_kebab member with
  | hyphen => decide
  | kept _ separates _ => exact separates
  | lowered _ isCapital lowered =>
      have small := Text.isSmall_of_mem_lowercaseChar isCapital lowered
      have notUnderscore : character ≠ '_' :=
        small.ne_of_not_isLower (by decide) (by decide)
      simp [isSeparator, small.visible, notUnderscore]

theorem underscore_not_mem_kebab (name : Text) : '_' ∉ kebab name :=
  fun member => absurd (isSeparator_of_mem_kebab member) (by decide)

theorem isBlank_of_mem_kebab {name : Text} {character : Char}
    (member : character ∈ kebab name) : isBlank character = false := by
  have separates := isSeparator_of_mem_kebab member
  simp only [isSeparator, Bool.or_eq_false_iff] at separates
  exact separates.1

theorem getLast?_kebab_ne (name : Text) :
    (kebab name).getLast? ≠ some '-' := by
  intro ends
  rw [kebab, List.getLast?_reverse] at ends
  have fails := List.head?_dropWhile_not (· == '-')
    (writeKebab [] none (Text.trim name))
  rw [ends] at fails
  exact absurd fails (by decide)

/-- What hyphenation aims at: a text without capitals, blanks and underscores
that does not end in a hyphen. -/
structure IsHyphenated (text : Text) : Prop where
  small : ∀ character ∈ text, isUppercase character = false
  visible : ∀ character ∈ text, isBlank character = false
  noUnderscore : '_' ∉ text
  noLastHyphen : text.getLast? ≠ some '-'

theorem IsHyphenated.isSeparator {text : Text} (hyphenated : IsHyphenated text)
    {character : Char} (member : character ∈ text) :
    isSeparator character = false := by
  have notUnderscore : character ≠ '_' := by
    rintro rfl
    exact hyphenated.noUnderscore member
  simp [Name.isSeparator, hyphenated.visible character member, notUnderscore]

theorem IsHyphenated.kebab_eq {text : Text} (hyphenated : IsHyphenated text) :
    kebab text = text := by
  have visibleEnd (last : Char) (ends : text.getLast? = some last) :
      isJoint last = false := by
    have joined := hyphenated.isSeparator (List.mem_of_getLast? ends)
    have notHyphen : last ≠ '-' := fun isHyphen =>
      hyphenated.noLastHyphen (isHyphen ▸ ends)
    simp [isJoint, joined, notHyphen]
  rw [kebab_eq_reverse visibleEnd,
    writeKebab_eq_append (fun _ => hyphenated.isSeparator) hyphenated.small,
    List.append_nil, List.reverse_reverse]

theorem isHyphenated_kebab {name : Text}
    (lowers : ∀ capital ∈ name, isUppercase capital = true →
      ∀ character ∈ lowercaseChar capital, isUppercase character = false) :
    IsHyphenated (kebab name) where
  small := by
    intro character member
    cases mem_kebab member with
    | hyphen => decide
    | kept _ _ isSmall => exact isSmall
    | lowered inName isCapital lowered =>
        exact lowers _ inName isCapital character lowered
  visible := fun _ => isBlank_of_mem_kebab
  noUnderscore := underscore_not_mem_kebab name
  noLastHyphen := getLast?_kebab_ne name

/-- Where the lowercase form of each capital has no capital in it, the
hyphenated form of a name has neither capitals nor blanks nor underscores, does
not end in a hyphen, and hyphenation leaves it as it is. -/
theorem kebab_isHyphenated_fixed {name : Text}
    (lowers : ∀ capital ∈ name, isUppercase capital = true →
      ∀ character ∈ lowercaseChar capital, isUppercase character = false) :
    IsHyphenated (kebab name) ∧ kebab (kebab name) = kebab name :=
  ⟨isHyphenated_kebab lowers, (isHyphenated_kebab lowers).kebab_eq⟩

/-- A name with a capital of two small characters, with a run of capitals and
with separators of all kinds. -/
def dottedName : Text :=
  " XMLİd__date-\tPicker2Σ _-".toList

theorem dottedName_isHyphenated_fixed :
    kebab dottedName = "xml-i\u0307d-date-picker2-\u03c3".toList ∧
    (∀ capital ∈ dottedName, isUppercase capital = true →
      ∀ character ∈ lowercaseChar capital, isUppercase character = false) ∧
    IsHyphenated (kebab dottedName) ∧
      kebab (kebab dottedName) = kebab dottedName := by
  have lowers : ∀ capital ∈ dottedName, isUppercase capital = true →
      ∀ character ∈ lowercaseChar capital, isUppercase character = false := by
    decide +kernel
  exact ⟨by decide +kernel, lowers, kebab_isHyphenated_fixed lowers⟩

/-! ## Tags -/

/-- A tag neither starts nor ends with a blank. -/
theorem trim_tag (name configured : Text) :
    Text.trim (tag name configured) = tag name configured := by
  have trimmedKebab : Text.trim (kebab name) = kebab name :=
    Text.trim_eq_self_of_visible fun _ => isBlank_of_mem_kebab
  rw [tag]
  generalize shape : Text.dropEndWhile (· == '-') (Text.trim configured) = start
  split
  · exact trimmedKebab
  · rename_i notBare
    obtain ⟨first, others, rfl⟩ : ∃ first others, start = first :: others := by
      apply List.exists_cons_of_ne_nil
      rintro rfl
      simp at notBare
    apply Text.trim_eq_self
    · -- The configured start keeps its first character.
      rintro _ ⟨rfl⟩
      obtain ⟨rest, parts, -⟩ :=
        Text.exists_dropEndWhile_append (· == '-') (Text.trim configured)
      have starts : (Text.trim configured).head? = some first := by
        rw [parts, shape]
        rfl
      exact Text.head?_trim starts
    · intro last ends
      rw [List.getLast?_append] at ends
      cases endsKebab : (kebab name).getLast? with
      | some final =>
          rw [endsKebab] at ends
          cases ends
          exact isBlank_of_mem_kebab (List.mem_of_getLast? endsKebab)
      | none =>
          rw [endsKebab, List.getLast?_concat] at ends
          cases ends
          decide

end ComponentDocs.Name
