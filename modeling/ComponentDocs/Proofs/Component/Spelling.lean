import ComponentDocs.Proofs.Component.Hyphenation
import ComponentDocs.Proofs.Text.Join

/-!
The spellings of a name of several words. Whatever the style, hyphenation finds
the words again and joins them with single hyphens.
-/

namespace ComponentDocs.Name

open Text (isLowercase isUppercase lowercaseChar)

/-! ## Words and styles -/

/-- A character of a word: a small ASCII letter or a digit. -/
def isWordCharacter (character : Char) : Bool :=
  character.isLower || character.isDigit

/-- A word: a small ASCII letter, and then one or more small letters or
digits. -/
def isWord : Text → Bool
  | [] => false
  | first :: rest =>
      first.isLower && !rest.isEmpty && rest.all isWordCharacter

def capitalize : Text → Text
  | [] => []
  | first :: rest => first.toUpper :: rest

/-- The styles in which several words are written as one name. -/
inductive Style
  | camelCase
  | pascalCase
  | snakeCase
  | spaced
  | hyphenated
deriving DecidableEq, Repr

namespace Style

/-- Words as one name. -/
def spell : Style → List Text → Text
  | camelCase, [] => []
  | camelCase, first :: others => first ++ others.flatMap capitalize
  | pascalCase, words => words.flatMap capitalize
  | snakeCase, words => Text.join ['_'] words
  | spaced, words => Text.join [' '] words
  | hyphenated, words => Text.join ['-'] words

/-- How a style writes the first word of a name. -/
def first : Style → Text → Text
  | pascalCase, word => capitalize word
  | _, word => word

/-- How a style writes a word behind another one. -/
def further : Style → Text → Text
  | camelCase, word => capitalize word
  | pascalCase, word => capitalize word
  | snakeCase, word => '_' :: word
  | spaced, word => ' ' :: word
  | hyphenated, word => '-' :: word

theorem spell_cons (style : Style) (word : Text) (others : List Text) :
    style.spell (word :: others) =
      style.first word ++ others.flatMap style.further := by
  cases style with
  | camelCase => rfl
  | pascalCase => exact List.flatMap_cons
  | snakeCase => exact Text.join_cons_eq_flatMap _ _ _
  | spaced => exact Text.join_cons_eq_flatMap _ _ _
  | hyphenated => exact Text.join_cons_eq_flatMap _ _ _

end Style

/-! ## Characters of words -/

theorem isWordCharacter_ascii {character : Char}
    (proper : isWordCharacter character = true) :
    character.toNat < 128 := by
  have bounds : (97 ≤ character.toNat ∧ character.toNat ≤ 122) ∨
      (48 ≤ character.toNat ∧ character.toNat ≤ 57) := by
    change (decide (97 ≤ character.val) && decide (character.val ≤ 122) ||
        decide (48 ≤ character.val) && decide (character.val ≤ 57)) =
      true at proper
    simp only [Bool.or_eq_true, Bool.and_eq_true, decide_eq_true_eq,
      UInt32.le_iff_toNat_le] at proper
    exact proper
  omega

/-- How hyphenation sees a character of a word. -/
structure IsPlainlyWritten (character : Char) : Prop where
  joined : isSeparator character = false
  small : isUppercase character = false
  notHyphen : character ≠ '-'
  endsWord : (isLowercase character || character.isDigit) = true

theorem isPlainlyWritten {character : Char}
    (proper : isWordCharacter character = true) :
    IsPlainlyWritten character := by
  have facts := Text.of_ascii
    (fun character => !isWordCharacter character ||
      (!isSeparator character && !isUppercase character &&
        character != '-' && (isLowercase character || character.isDigit)))
    (by decide +kernel) (isWordCharacter_ascii proper)
  simp only [proper, Bool.not_true, Bool.false_or, Bool.and_eq_true,
    Bool.not_eq_true', bne_iff_ne] at facts
  exact ⟨facts.1.1.1, facts.1.1.2, facts.1.2, facts.2⟩

/-- How hyphenation sees the capital of a small letter. -/
structure IsCapitalOf (letter capital : Char) : Prop where
  joined : isSeparator capital = false
  isCapital : isUppercase capital = true
  notSmall : isLowercase capital = false
  lowered : lowercaseChar capital = [letter]

theorem isCapitalOf_toUpper {letter : Char}
    (isSmall : letter.isLower = true) :
    IsCapitalOf letter letter.toUpper := by
  have ascii : letter.toNat < 128 :=
    isWordCharacter_ascii (by simp [isWordCharacter, isSmall])
  have facts := Text.of_ascii
    (fun letter => !letter.isLower ||
      (!isSeparator letter.toUpper && isUppercase letter.toUpper &&
        !isLowercase letter.toUpper &&
          lowercaseChar letter.toUpper == [letter]))
    (by decide +kernel) ascii
  simp only [isSmall, Bool.not_true, Bool.false_or, Bool.and_eq_true,
    Bool.not_eq_true', beq_iff_eq] at facts
  exact ⟨facts.1.1.1, facts.1.1.2, facts.1.2, facts.2⟩

/-! ## One word -/

section Word

variable {word : Text} (proper : isWord word = true)

include proper

theorem exists_of_isWord :
    ∃ first rest, word = first :: rest ∧ first.isLower = true ∧ rest ≠ [] ∧
      ∀ character ∈ rest, isWordCharacter character = true := by
  cases word with
  | nil => cases proper
  | cons first rest =>
      simp only [isWord, Bool.and_eq_true, Bool.not_eq_true',
        List.all_eq_true] at proper
      exact ⟨first, rest, rfl, proper.1.1,
        by simpa using proper.1.2, proper.2⟩

theorem isWordCharacter_of_mem {character : Char}
    (member : character ∈ word) : isWordCharacter character = true := by
  obtain ⟨first, rest, rfl, isSmall, -, properRest⟩ :=
    exists_of_isWord proper
  rcases List.mem_cons.mp member with rfl | inRest
  · simp [isWordCharacter, isSmall]
  · exact properRest character inRest

theorem writeKebab_word (written : Text) (previous : Option Char) :
    writeKebab written previous word = word.reverse ++ written :=
  writeKebab_eq_append
    (fun _ member =>
      (isPlainlyWritten (isWordCharacter_of_mem proper member)).joined)
    (fun _ member =>
      (isPlainlyWritten (isWordCharacter_of_mem proper member)).small)
    written previous

/-- A capitalised word is written like the word, behind a hyphen where a word
ends before it. -/
theorem writeKebab_capitalize (written : Text) (previous : Option Char) :
    writeKebab written previous (capitalize word) =
      word.reverse ++
        if startsWord previous (word.drop 1).head? then writeHyphen written
        else written := by
  obtain ⟨first, rest, rfl, isSmall, -, properRest⟩ :=
    exists_of_isWord proper
  have capital := isCapitalOf_toUpper isSmall
  rw [capitalize, writeKebab, capital.joined, if_neg Bool.false_ne_true,
    if_pos capital.isCapital, capital.lowered,
    writeKebab_eq_append
      (fun character member =>
        (isPlainlyWritten (properRest character member)).joined)
      (fun character member =>
        (isPlainlyWritten (properRest character member)).small),
    List.reverse_cons, List.append_assoc, List.reverse_cons,
    List.append_assoc]
  rfl

end Word

theorem startsWord_of_isWordCharacter {previous : Char}
    (proper : isWordCharacter previous = true) (next : Option Char) :
    startsWord (some previous) next = true := by
  rw [startsWord, (isPlainlyWritten proper).endsWord, Bool.true_or]

/-! ## Several words -/

/-- Whether a text ends like a word. -/
def EndsWord (text : Text) : Prop :=
  ∃ last, text.getLast? = some last ∧ isWordCharacter last = true

theorem endsWord_of_isWord {word : Text} (proper : isWord word = true) :
    EndsWord word := by
  obtain ⟨first, rest, rfl, -, -, -⟩ := exists_of_isWord proper
  exact ⟨_, List.getLast?_cons, isWordCharacter_of_mem proper
    (List.mem_of_getLast? List.getLast?_cons)⟩

theorem endsWord_capitalize {word : Text} (proper : isWord word = true) :
    EndsWord (capitalize word) := by
  obtain ⟨last, ends, isEnd⟩ := endsWord_of_isWord proper
  obtain ⟨first, rest, rfl, -, nonempty, -⟩ := exists_of_isWord proper
  obtain ⟨second, others, rfl⟩ := List.exists_cons_of_ne_nil nonempty
  exact ⟨last, ends, isEnd⟩

namespace Style

variable (style : Style) {word : Text} (proper : isWord word = true)

include proper

theorem endsWord_first : EndsWord (style.first word) := by
  cases style with
  | pascalCase => exact endsWord_capitalize proper
  | camelCase => exact endsWord_of_isWord proper
  | snakeCase => exact endsWord_of_isWord proper
  | spaced => exact endsWord_of_isWord proper
  | hyphenated => exact endsWord_of_isWord proper

theorem endsWord_further : EndsWord (style.further word) := by
  have behind (mark : Char) : EndsWord (mark :: word) := by
    obtain ⟨last, ends, isEnd⟩ := endsWord_of_isWord proper
    exact ⟨last, by rw [List.getLast?_cons, ends]; rfl, isEnd⟩
  cases style with
  | camelCase => exact endsWord_capitalize proper
  | pascalCase => exact endsWord_capitalize proper
  | snakeCase => exact behind '_'
  | spaced => exact behind ' '
  | hyphenated => exact behind '-'

/-- No style starts a further word with a small letter. -/
theorem head?_further :
    (style.further word).head?.any isLowercase = false := by
  have capital : (capitalize word).head?.any isLowercase = false := by
    obtain ⟨first, rest, rfl, isSmall, -, -⟩ := exists_of_isWord proper
    exact (isCapitalOf_toUpper isSmall).notSmall
  have mark (joint : Char) (isJoint : isJoint joint = true) :
      isLowercase joint = false :=
    (isLetterless_of_isJoint isJoint).notSmall
  cases style with
  | camelCase => exact capital
  | pascalCase => exact capital
  | snakeCase => exact mark '_' (by decide)
  | spaced => exact mark ' ' (by decide)
  | hyphenated => exact mark '-' (by decide)

theorem writeKebab_first :
    writeKebab [] none (style.first word) = word.reverse := by
  have plain := writeKebab_word proper [] none
  have capital := writeKebab_capitalize proper [] none
  rw [List.append_nil] at plain
  have atStart : startsWord none (word.drop 1).head? = false := rfl
  rw [atStart, if_neg Bool.false_ne_true, List.append_nil] at capital
  cases style with
  | pascalCase => exact capital
  | camelCase => exact plain
  | snakeCase => exact plain
  | spaced => exact plain
  | hyphenated => exact plain

/-- Behind a word each style has a further word written behind one hyphen. -/
theorem writeKebab_further {written : Text} {last : Char}
    (starts : written.head? = some last)
    (isEnd : isWordCharacter last = true) {previous : Char}
    (endsPrevious : isWordCharacter previous = true) :
    writeKebab written (some previous) (style.further word) =
      word.reverse ++ '-' :: written := by
  have hyphen : writeHyphen written = '-' :: written := by
    apply writeHyphen_of_head?_ne
    rw [starts, ne_eq, Option.some.injEq]
    exact (isPlainlyWritten isEnd).notHyphen
  have nonempty : written.isEmpty = false := by
    cases written with
    | nil => cases starts
    | cons => rfl
  have capital := writeKebab_capitalize proper written (some previous)
  rw [startsWord_of_isWordCharacter endsPrevious, if_pos rfl, hyphen]
    at capital
  have behind (separator : Char) (separates : isSeparator separator = true) :
      writeKebab written (some previous) (separator :: word) =
        word.reverse ++ '-' :: written := by
    rw [writeKebab, if_pos separates, nonempty, if_neg Bool.false_ne_true,
      hyphen, writeKebab_word proper]
  cases style with
  | camelCase => exact capital
  | pascalCase => exact capital
  | snakeCase => exact behind '_' (by decide)
  | spaced => exact behind ' ' (by decide)
  | hyphenated =>
      have whole := writeKebab_append_hyphen written (some previous) [] word
      rwa [writeKebab_word proper] at whole

end Style

theorem Style.head?_flatMap_further (style : Style) {words : List Text}
    (proper : ∀ word ∈ words, isWord word = true) :
    (words.flatMap style.further).head?.any isLowercase = false := by
  cases words with
  | nil =>
      rfl
  | cons word rest =>
      have properWord := proper word List.mem_cons_self
      have nonempty : style.further word ≠ [] := by
        intro empty
        obtain ⟨_, ends, -⟩ := style.endsWord_further properWord
        simp [empty] at ends
      rw [List.flatMap_cons, List.head?_append_of_ne_nil _ nonempty]
      exact style.head?_further properWord

theorem EndsWord.append {second : Text} (ends : EndsWord second)
    (first : Text) : EndsWord (first ++ second) := by
  obtain ⟨last, isLast, isEnd⟩ := ends
  exact ⟨last, by rw [List.getLast?_append, isLast, Option.some_or], isEnd⟩

theorem endsWord_spell_cons (style : Style) {word : Text}
    {others : List Text} (proper : isWord word = true)
    (properOthers : ∀ word ∈ others, isWord word = true) :
    EndsWord (style.spell (word :: others)) := by
  rw [style.spell_cons]
  induction others using List.reverseRecOn with
  | nil =>
      rw [List.flatMap_nil, List.append_nil]
      exact style.endsWord_first proper
  | append_singleton before last inductionHypothesis =>
      have properLast := properOthers last (by simp)
      rw [List.flatMap_append, List.flatMap_singleton, ← List.append_assoc]
      exact (style.endsWord_further properLast).append _

/-- The words behind the first one are written one after another, each behind
one hyphen. -/
theorem writeKebab_flatMap_further (style : Style) {words : List Text}
    (proper : ∀ word ∈ words, isWord word = true) {written : Text}
    {last : Char} (starts : written.head? = some last)
    (isEnd : isWordCharacter last = true) {previous : Char}
    (endsPrevious : isWordCharacter previous = true) :
    writeKebab written (some previous) (words.flatMap style.further) =
      (words.flatMap (['-'] ++ ·)).reverse ++ written := by
  induction words generalizing written last previous with
  | nil =>
      rfl
  | cons word rest inductionHypothesis =>
      obtain ⟨properWord, properRest⟩ := List.forall_mem_cons.mp proper
      have apart :
          (rest.flatMap style.further).head?.any isLowercase = false :=
        style.head?_flatMap_further properRest
      obtain ⟨next, endsNext, isNext⟩ := style.endsWord_further properWord
      obtain ⟨final, endsFinal, isFinal⟩ := endsWord_of_isWord properWord
      have startsNext :
          (word.reverse ++ '-' :: written).head? = some final := by
        rw [List.head?_append, List.head?_reverse, endsFinal]
        rfl
      rw [List.flatMap_cons, writeKebab_append apart,
        style.writeKebab_further properWord starts isEnd endsPrevious,
        endsNext, Option.some_or,
        inductionHypothesis properRest startsNext isFinal isNext,
        List.flatMap_cons]
      simp

/-- In every style words make a name whose hyphenated form is the words joined
by single hyphens. -/
theorem kebab_spell (style : Style) {words : List Text}
    (proper : ∀ word ∈ words, isWord word = true) :
    kebab (style.spell words) = Text.join ['-'] words := by
  cases words with
  | nil =>
      cases style <;> rfl
  | cons word others =>
      obtain ⟨properWord, properOthers⟩ := List.forall_mem_cons.mp proper
      have visibleEnd (last : Char)
          (isLast : (style.spell (word :: others)).getLast? = some last) :
          isJoint last = false := by
        obtain ⟨final, isFinal, isEnd⟩ :=
          endsWord_spell_cons style properWord properOthers
        obtain rfl : final = last :=
          Option.some.inj (isFinal.symm.trans isLast)
        simp [isJoint, (isPlainlyWritten isEnd).joined,
          (isPlainlyWritten isEnd).notHyphen]
      have apart :
          (others.flatMap style.further).head?.any isLowercase = false :=
        style.head?_flatMap_further properOthers
      obtain ⟨previous, ends, isPrevious⟩ := style.endsWord_first properWord
      obtain ⟨last, endsLast, isLast⟩ := endsWord_of_isWord properWord
      have starts : word.reverse.head? = some last := by
        rw [List.head?_reverse, endsLast]
      calc
        kebab (style.spell (word :: others))
            = (writeKebab [] none (style.spell (word :: others))).reverse :=
          kebab_eq_reverse visibleEnd
        _ = (writeKebab word.reverse (some previous)
              (others.flatMap style.further)).reverse := by
          rw [style.spell_cons, writeKebab_append apart,
            style.writeKebab_first properWord, ends, Option.some_or]
        _ = word ++ others.flatMap (['-'] ++ ·) := by
          rw [writeKebab_flatMap_further style properOthers starts isLast
            isPrevious, List.reverse_append, List.reverse_reverse,
            List.reverse_reverse]
        _ = Text.join ['-'] (word :: others) :=
          (Text.join_cons_eq_flatMap ['-'] word others).symm

/-- Words with digits and of two letters, in each style. -/
def pickerWords : List Text :=
  ["h2".toList, "date".toList, "picker2".toList, "xy".toList]

theorem kebab_pickerWords :
    Style.camelCase.spell pickerWords = "h2DatePicker2Xy".toList ∧
      Style.pascalCase.spell pickerWords = "H2DatePicker2Xy".toList ∧
      Style.snakeCase.spell pickerWords = "h2_date_picker2_xy".toList ∧
      (∀ word ∈ pickerWords, isWord word = true) ∧
      ∀ style : Style,
        kebab (style.spell pickerWords) = "h2-date-picker2-xy".toList := by
  have proper : ∀ word ∈ pickerWords, isWord word = true := by
    decide
  exact ⟨by decide, by decide, by decide, proper,
    fun style => kebab_spell style proper⟩

end ComponentDocs.Name
