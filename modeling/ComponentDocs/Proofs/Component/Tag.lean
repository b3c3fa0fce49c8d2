import ComponentDocs.Proofs.Component.Name

/-!
The tag of a tag. Making a tag again leaves it as it is where both of its parts
are in hyphenated form; otherwise its start is put in front of it once more.
-/

namespace ComponentDocs.Name

/-! ## Names behind a start -/

/-- What is put in front of a name, without the hyphen between the two. -/
def tagStart (configured : Text) : Text :=
  Text.dropEndWhile (· == '-') (Text.trim configured)

theorem getLast?_tagStart_ne (configured : Text) :
    (tagStart configured).getLast? ≠ some '-' := by
  intro ends
  exact absurd (Text.getLast?_dropEndWhile ends) (by decide)

theorem tag_eq (name configured : Text) :
    tag name configured =
      if tagStart configured = [] ∨
          tagStart configured ++ ['-'] <+: kebab name then
        kebab name
      else tagStart configured ++ '-' :: kebab name := by
  have sameTest :
      ((tagStart configured).isEmpty ||
          (tagStart configured ++ ['-']).isPrefixOf (kebab name)) = true ↔
        (tagStart configured = [] ∨
          tagStart configured ++ ['-'] <+: kebab name) := by
    rw [Bool.or_eq_true, List.isEmpty_iff, List.isPrefixOf_iff_prefix]
  rw [tag]
  change (if ((tagStart configured).isEmpty ||
      (tagStart configured ++ ['-']).isPrefixOf (kebab name)) = true then _
    else tagStart configured ++ ['-'] ++ kebab name) = _
  simp only [sameTest, List.append_assoc, List.singleton_append]

theorem isJoint_eq_false {character : Char}
    (joined : isSeparator character = false)
    (notHyphen : character ≠ '-') : isJoint character = false := by
  simp [isJoint, joined, notHyphen]

theorem getLast?_kebab_visible {name : Text} (last : Char)
    (ends : (kebab name).getLast? = some last) : isJoint last = false :=
  isJoint_eq_false
    (isSeparator_of_mem_kebab (List.mem_of_getLast? ends))
    fun isHyphen => getLast?_kebab_ne name (isHyphen ▸ ends)

theorem kebab_kebab_eq_reverse (name : Text) :
    kebab (kebab name) = (writeKebab [] none (kebab name)).reverse :=
  kebab_eq_reverse getLast?_kebab_visible

/-- Hyphenation makes no hyphenated name shorter. -/
theorem length_le_kebab_kebab (name : Text) :
    (kebab name).length ≤ (kebab (kebab name)).length := by
  have joined (character : Char) (member : character ∈ kebab name) :
      isSeparator character = false :=
    isSeparator_of_mem_kebab member
  have longer := length_le_writeKebab joined [] none
  rw [List.length_nil, Nat.zero_add] at longer
  rwa [kebab_kebab_eq_reverse, List.length_reverse]

/-- A start and a hyphenated name are hyphenated one after the other. -/
theorem kebab_append_kebab (start : Text) {name : Text}
    (nonempty : kebab name ≠ []) :
    kebab (start ++ '-' :: kebab name) =
      (writeKebab [] none start).reverse ++ '-' :: kebab (kebab name) := by
  have visibleEnd (last : Char)
      (ends : (start ++ '-' :: kebab name).getLast? = some last) :
      isJoint last = false := by
    obtain ⟨final, endsName⟩ :=
      Option.ne_none_iff_exists'.mp
        (mt List.getLast?_eq_none_iff.mp nonempty)
    refine getLast?_kebab_visible last
      (?_ : (kebab name).getLast? = some last)
    rw [endsName]
    simpa [List.getLast?_append, List.getLast?_cons, endsName] using ends
  rw [kebab_eq_reverse visibleEnd, writeKebab_append_hyphen,
    writeKebab_none fun _ => isSeparator_of_mem_kebab, List.reverse_append,
    List.reverse_cons, kebab_kebab_eq_reverse, List.append_assoc]
  rfl

theorem kebab_append_hyphen (start : Text) :
    kebab (start ++ ['-']) = kebab start :=
  kebab_append_joints (by decide) start

/-- A start and a hyphenated name stay as they are together exactly when each
does on its own. -/
theorem kebab_append_kebab_eq_iff {start name : Text}
    (startEnds : start.getLast? ≠ some '-') (nonempty : kebab name ≠ []) :
    kebab (start ++ '-' :: kebab name) = start ++ '-' :: kebab name ↔
      kebab start = start ∧ kebab (kebab name) = kebab name := by
  have written_eq (joined : ∀ character ∈ start, isSeparator character = false) :
      kebab start = (writeKebab [] none start).reverse :=
    kebab_eq_reverse fun last ends =>
      isJoint_eq_false (joined last (List.mem_of_getLast? ends))
        fun isHyphen => startEnds (isHyphen ▸ ends)
  constructor
  · intro same
    have joined (character : Char) (member : character ∈ start) :
        isSeparator character = false := by
      refine isSeparator_of_mem_kebab
        (?_ : character ∈ kebab (start ++ '-' :: kebab name))
      rw [same]
      exact List.mem_append_left _ member
    rw [kebab_append_kebab start nonempty] at same
    -- Neither part gets shorter, so that the parts are the same, too.
    have startLonger := length_le_writeKebab joined [] none
    have nameLonger := length_le_kebab_kebab name
    have whole := congrArg List.length same
    simp only [List.length_append, List.length_cons, List.length_reverse,
      List.length_nil, Nat.zero_add] at whole startLonger
    obtain ⟨sameStart, sameName⟩ :=
      List.append_inj same (by rw [List.length_reverse]; omega)
    exact ⟨(written_eq joined).trans sameStart, (List.cons.inj sameName).2⟩
  · rintro ⟨sameStart, sameName⟩
    have joined (character : Char) (member : character ∈ start) :
        isSeparator character = false :=
      isSeparator_of_mem_kebab (sameStart.symm ▸ member)
    rw [kebab_append_kebab start nonempty, sameName, ← written_eq joined,
      sameStart]

/-! ## Tags of tags -/

/-- What makes a text longer does not give the text back. -/
theorem append_cons_ne (start : Text) (character : Char) {text longer : Text}
    (long : text.length ≤ longer.length) :
    start ++ character :: longer ≠ text := by
  rintro rfl
  simp only [List.length_append, List.length_cons] at long
  omega

/-- A tag that has no start put in front of it stays as it is exactly when
the hyphenated name does. -/
theorem tag_kebab_eq_iff {name configured : Text}
    (bare : tagStart configured = [] ∨
      tagStart configured ++ ['-'] <+: kebab name) :
    tag (kebab name) configured = kebab name ↔
      kebab (kebab name) = kebab name := by
  rw [tag_eq]
  constructor
  · intro same
    split at same
    · exact same
    · exact absurd same (append_cons_ne _ _ (length_le_kebab_kebab name))
  · intro same
    rw [same, if_pos bare]

/-- A start without a name stays as it is when hyphenation leaves nothing of
it. -/
theorem tag_start_eq_iff {configured : Text}
    (nonempty : tagStart configured ≠ []) :
    tag (tagStart configured ++ ['-']) configured =
        tagStart configured ++ ['-'] ↔
      kebab (tagStart configured) = [] := by
  rw [tag_eq, kebab_append_hyphen]
  split
  · rename_i bare
    have startsSo := bare.resolve_left nonempty
    constructor
    · intro same
      have ends := getLast?_kebab_ne (tagStart configured)
      rw [same, List.getLast?_concat] at ends
      exact absurd rfl ends
    · intro empty
      rw [empty, List.prefix_nil] at startsSo
      simp at startsSo
  · rw [List.append_cancel_left_eq, List.cons.injEq]
    simp

/-- A start put in front of a name stays as it is exactly when hyphenation
leaves both as they are. -/
theorem tag_append_eq_iff {name configured : Text}
    (nonempty : kebab name ≠ []) :
    tag (tagStart configured ++ '-' :: kebab name) configured =
        tagStart configured ++ '-' :: kebab name ↔
      kebab (tagStart configured) = tagStart configured ∧
        kebab (kebab name) = kebab name := by
  rw [← kebab_append_kebab_eq_iff (getLast?_tagStart_ne configured) nonempty,
    tag_eq]
  split
  · rfl
  · rename_i notBare
    constructor
    · intro same
      rw [List.append_cancel_left_eq, List.cons.injEq,
        kebab_append_kebab _ nonempty] at same
      exact absurd same.2 (append_cons_ne _ _ (length_le_kebab_kebab name))
    · intro same
      refine absurd (Or.inr ?_) notBare
      rw [same]
      exact ⟨kebab name, by simp⟩

/-- Making a tag again leaves it as it is exactly when the hyphenated name is
in hyphenated form, and so is the start where it has been put in front of a
name that is not empty. In front of an empty name nothing may be left of the
start. -/
theorem tag_tag_eq_iff (name configured : Text) :
    tag (tag name configured) configured = tag name configured ↔
      kebab (kebab name) = kebab name ∧
        (tagStart configured = [] ∨
          tagStart configured ++ ['-'] <+: kebab name ∨
          kebab (tagStart configured) =
            if kebab name = [] then [] else tagStart configured) := by
  conv_lhs => rw [tag_eq name]
  split
  · rename_i bare
    rw [tag_kebab_eq_iff bare, ← or_assoc]
    simp [bare]
  · rename_i notBare
    obtain ⟨started, notAlready⟩ := not_or.mp notBare
    by_cases noName : kebab name = []
    · have kebabNil : kebab [] = [] := rfl
      rw [noName, tag_start_eq_iff started, kebabNil]
      simp [started]
    · rw [tag_append_eq_iff noName, if_neg noName]
      simp [started, notAlready, and_comm]

/-- A configured start with a capital is put in front again and again, and so
is any start without a name; a capital without a small form starts a word the
second time only. -/
theorem tag_again_doubled :
    tag (tag "Button".toList "Y".toList) "Y".toList ≠
        tag "Button".toList "Y".toList ∧
      tag "Button".toList "Y".toList = "Y-button".toList ∧
      tag "Y-button".toList "Y".toList = "Y-y-button".toList ∧
      tag "ElDatePicker".toList "El".toList = "El-el-date-picker".toList ∧
      tag [] "y".toList = "y-".toList ∧
      tag "y-".toList "y".toList = "y-y".toList ∧
      tag "A𝐀".toList [] = "a𝐀".toList ∧
      tag "a𝐀".toList [] = "a-𝐀".toList := by
  decide +kernel

end ComponentDocs.Name
