import ComponentDocs.Proofs.Files.Tree
import ComponentDocs.Proofs.Text.Case
import ComponentDocs.Proofs.Text.Trim
import ComponentDocs.Store.Names
import Mathlib.Data.List.Infix

/-!
The file names of tags.

A stem holds nothing that could lead out of its directory, and it is its own
stem. Two file names of tags are the same only for the same stem, or where the
point of an end of two parts is taken for a part of the stem.
-/

namespace ComponentDocs.Store

open Text (isBlank trim)

/-! ## Plain texts -/

/-- A text that can be a file name as it is. -/
structure IsPlainTag (tag : Text) : Prop where
  plain : ∀ character ∈ tag, isPlain character = true
  single : ¬ ['.', '.'] <:+: tag

instance (tag : Text) : Decidable (IsPlainTag tag) :=
  decidable_of_iff (tag.all isPlain = true ∧ ¬ ['.', '.'] <:+: tag)
    ⟨fun ⟨plain, single⟩ => ⟨List.all_eq_true.mp plain, single⟩,
      fun isPlainTag =>
        ⟨List.all_eq_true.mpr isPlainTag.plain, isPlainTag.single⟩⟩

theorem isPlain_plain (character : Char) :
    isPlain (plain character) = true := by
  rw [plain]
  split
  · assumption
  · rfl

theorem map_plain_eq_self {text : Text}
    (isPlainText : ∀ character ∈ text, isPlain character = true) :
    text.map plain = text := by
  have kept : ∀ character ∈ text, plain character = id character :=
    fun character member => if_pos (isPlainText character member)
  rw [List.map_congr_left kept, List.map_id]

theorem isBlank_of_isPlain {character : Char}
    (isPlainCharacter : isPlain character = true) :
    isBlank character = false := by
  simp only [isPlain, Bool.or_eq_true, beq_iff_eq] at isPlainCharacter
  rcases isPlainCharacter with ((alphanumeric | rfl) | rfl) | rfl
  · exact Text.isBlank_of_isAlphanum alphanumeric
  all_goals rfl

theorem trim_eq_self_of_isPlain {text : Text}
    (isPlainText : ∀ character ∈ text, isPlain character = true) :
    trim text = text :=
  Text.trim_eq_self_of_visible fun character member =>
    isBlank_of_isPlain (isPlainText character member)

/-! ## Adjacent points -/

theorem mem_collapsePoints {text : Text} {character : Char}
    (member : character ∈ collapsePoints text) :
    character = '_' ∨ character ∈ text := by
  fun_induction collapsePoints text with
  | case1 =>
      exact .inr member
  | case2 rest inductionHypothesis =>
      rcases List.mem_cons.mp member with rfl | later
      · exact .inl rfl
      · exact (inductionHypothesis later).imp_right fun inRest =>
          List.mem_cons_of_mem _ (List.mem_cons_of_mem _ inRest)
  | case3 first rest notPair inductionHypothesis =>
      rcases List.mem_cons.mp member with rfl | later
      · exact .inr List.mem_cons_self
      · exact (inductionHypothesis later).imp_right (List.mem_cons_of_mem _)

theorem collapsePoints_eq_self {text : Text}
    (single : ¬ ['.', '.'] <:+: text) : collapsePoints text = text := by
  fun_induction collapsePoints text with
  | case1 =>
      rfl
  | case2 rest inductionHypothesis =>
      exact absurd (List.prefix_append ['.', '.'] rest).isInfix single
  | case3 first rest notPair inductionHypothesis =>
      rw [inductionHypothesis fun within => single (List.infix_cons within)]

/-- A point at the start comes from a point at the start. -/
theorem exists_of_collapsePoints_eq_cons {text rest : Text}
    (collapsed : collapsePoints text = '.' :: rest) :
    ∃ after, text = '.' :: after := by
  unfold collapsePoints at collapsed
  split at collapsed
  · cases collapsed
  · cases collapsed
  · obtain ⟨rfl, -⟩ := List.cons.inj collapsed
    exact ⟨_, rfl⟩

theorem not_isInfix_collapsePoints (text : Text) :
    ¬ ['.', '.'] <:+: collapsePoints text := by
  fun_induction collapsePoints text with
  | case1 =>
      simp
  | case2 rest inductionHypothesis =>
      rw [List.infix_cons_iff]
      simpa using inductionHypothesis
  | case3 first rest notPair inductionHypothesis =>
      rw [List.infix_cons_iff]
      rintro (⟨after, starts⟩ | within)
      · obtain ⟨rfl, collapsed⟩ := List.cons.inj starts
        obtain ⟨later, rfl⟩ := exists_of_collapsePoints_eq_cons collapsed.symm
        exact notPair later rfl rfl
      · exact inductionHypothesis within

/-! ## Stems -/

theorem isPlainTag_stemOf (tag : Text) : IsPlainTag (stemOf tag) where
  plain := by
    intro character member
    rcases mem_collapsePoints member with rfl | mapped
    · rfl
    · obtain ⟨original, -, rfl⟩ := List.mem_map.mp mapped
      exact isPlain_plain original
  single := not_isInfix_collapsePoints _

theorem IsPlainTag.stemOf_eq_self {tag : Text} (plainTag : IsPlainTag tag) :
    stemOf tag = tag := by
  rw [stemOf, trim_eq_self_of_isPlain plainTag.plain,
    map_plain_eq_self plainTag.plain, collapsePoints_eq_self plainTag.single]

/-- The tags that are their own stems. -/
theorem stemOf_eq_self_iff {tag : Text} :
    stemOf tag = tag ↔ IsPlainTag tag :=
  ⟨fun itself => itself ▸ isPlainTag_stemOf tag, IsPlainTag.stemOf_eq_self⟩

/-- An end that makes a stem a proper file name. -/
structure IsEnd (last : Text) : Prop where
  unslashed : '/' ∉ last
  long : 2 < last.length

instance (last : Text) : Decidable (IsEnd last) :=
  decidable_of_iff ('/' ∉ last ∧ 2 < last.length)
    ⟨fun ⟨unslashed, long⟩ => ⟨unslashed, long⟩,
      fun isEnd => ⟨isEnd.unslashed, isEnd.long⟩⟩

theorem isEnd_of_mem_typeEnds : ∀ last ∈ typeEnds, IsEnd last := by
  decide

theorem isEnd_of_mem_exampleEnds : ∀ last ∈ exampleEnds, IsEnd last := by
  decide

theorem isEntryName_stemOf_append (tag : Text) {last : Text}
    (isEnd : IsEnd last) : FileTree.IsEntryName (stemOf tag ++ last) := by
  have long : 2 < (stemOf tag ++ last).length := by
    rw [List.length_append]
    exact Nat.lt_add_left _ isEnd.long
  refine ⟨?_, ?_, ?_, ?_⟩
  · rintro empty
    simp [empty] at long
  · rw [List.mem_append]
    rintro (inStem | inEnd)
    · exact absurd ((isPlainTag_stemOf tag).plain _ inStem) (by decide)
    · exact isEnd.unslashed inEnd
  · rintro isPoint
    simp [isPoint] at long
  · rintro arePoints
    simp [arePoints] at long

theorem suffix_of_mem_exampleEnds :
    ∀ first ∈ exampleEnds, ∀ second ∈ exampleEnds,
      second <:+ first → first = second := by
  decide

theorem suffix_of_mem_typeEnds :
    ∀ first ∈ typeEnds, ∀ second ∈ typeEnds,
      second <:+ first → first = second ∨ first = ".d".toList ++ second := by
  decide

/-- Equal file names of examples have equal stems. -/
theorem eq_of_append_exampleEnd {stem other first second : Text}
    (isFirst : first ∈ exampleEnds) (isSecond : second ∈ exampleEnds)
    (same : stem ++ first = other ++ second) : stem = other := by
  suffices first = second by
    subst this
    exact List.append_cancel_right same
  rcases List.append_eq_append_iff.mp same with
    ⟨middle, -, split⟩ | ⟨middle, -, split⟩
  · exact suffix_of_mem_exampleEnds _ isFirst _ isSecond ⟨middle, split.symm⟩
  · exact (suffix_of_mem_exampleEnds _ isSecond _ isFirst
      ⟨middle, split.symm⟩).symm

/-- One stem is the other, up to a part of an end of type definitions. -/
def Overlap (stem other : Text) : Prop :=
  stem = other ∨ stem = other ++ ".d".toList ∨ other = stem ++ ".d".toList

/-- Equal file names of type definitions have stems that overlap. -/
theorem overlap_of_append_typeEnd {stem other first second : Text}
    (isFirst : first ∈ typeEnds) (isSecond : second ∈ typeEnds)
    (same : stem ++ first = other ++ second) : Overlap stem other := by
  rcases List.append_eq_append_iff.mp same with
    ⟨middle, rfl, split⟩ | ⟨middle, rfl, split⟩
  · rcases suffix_of_mem_typeEnds _ isFirst _ isSecond ⟨middle, split.symm⟩
      with rfl | rfl
    · exact .inl (List.append_cancel_right same)
    · exact .inr (.inr (by rw [List.append_cancel_right split]))
  · rcases suffix_of_mem_typeEnds _ isSecond _ isFirst ⟨middle, split.symm⟩
      with rfl | rfl
    · exact .inl (List.append_cancel_right same)
    · exact .inr (.inl (by rw [List.append_cancel_right split]))

end ComponentDocs.Store
