import ComponentDocs.Text.Case

/-!
Letters are no blanks. The lowercase form of a capital letter has no blank in
it, and of the ASCII characters none but the small letters.

The tables hold runs of code points, and a run that is moved lies in a block
when both of its ends do.
-/

namespace ComponentDocs.Text

/-! ## Blocks of code points -/

namespace CaseTable

/-- The code points between the blanks, without the surrogates and without the
ASCII characters that are no small letters. -/
def plainBlocks : List (Nat × Nat) := [
  (0x61, 0x7A), (0xA1, 0x167F), (0x1681, 0x1FFF), (0x2060, 0x2FFF),
  (0x3001, 0xD7FF), (0xE000, 0x10FFFF)]

def IsPlainCode (code : Nat) : Prop :=
  ∃ block ∈ plainBlocks, block.1 ≤ code ∧ code ≤ block.2

/-- Whether a run lies in one block once it has been moved. -/
def staysPlain (run : Run) (shift : Int) : Bool :=
  plainBlocks.any fun block =>
    (block.1 : Int) ≤ run.1 + shift && run.2.1 + shift ≤ (block.2 : Int)

theorem isPlainCode_of_staysPlain {run : Run} {shift : Int} {code : Nat}
    (plain : staysPlain run shift = true) (held : run.holds code = true) :
    IsPlainCode (code + shift).toNat := by
  obtain ⟨first, last, step⟩ := run
  obtain ⟨block, member, bounds⟩ := List.any_eq_true.mp plain
  simp only [Run.holds, Bool.and_eq_true, decide_eq_true_eq] at bounds held
  exact ⟨block, member, by omega, by omega⟩

theorem staysPlain_uppercase : ∀ run ∈ uppercase, staysPlain run 0 = true := by
  decide +kernel

theorem staysPlain_lowercase : ∀ run ∈ lowercase, staysPlain run 0 = true := by
  decide +kernel

theorem staysPlain_lowercaseShift :
    ∀ entry ∈ lowercaseShift, staysPlain entry.1 entry.2 = true := by
  decide +kernel

end CaseTable

/-- What holds of the first 128 code points holds of every ASCII character. -/
theorem of_ascii (test : Char → Bool)
    (passes : ∀ code : Fin 128, test (Char.ofNat code) = true)
    {character : Char} (ascii : character.toNat < 128) :
    test character = true := by
  have passed := passes ⟨character.toNat, ascii⟩
  rwa [Char.ofNat_toNat] at passed

/-! ## Letters -/

/-- A character that is no blank and, if it is an ASCII character, a small
letter. -/
structure IsSmall (character : Char) : Prop where
  visible : isBlank character = false
  isLower : character.toNat < 128 → character.isLower = true

theorem IsSmall.ne_of_not_isLower {character other : Char}
    (small : IsSmall character) (ascii : other.toNat < 128)
    (notLower : other.isLower = false) : character ≠ other := by
  rintro rfl
  simp [small.isLower ascii] at notLower

theorem isLower_of_bounds {character : Char} (least : 0x61 ≤ character.toNat)
    (greatest : character.toNat ≤ 0x7A) : character.isLower = true := by
  have isLetter : 'a'.val ≤ character.val ∧ character.val ≤ 'z'.val :=
    ⟨least, greatest⟩
  change (_ && _) = true
  exact Bool.and_eq_true_iff.mpr (isLetter.imp decide_eq_true decide_eq_true)

theorem isSmall_of_isPlainCode {character : Char}
    (plain : CaseTable.IsPlainCode character.toNat) : IsSmall character := by
  obtain ⟨block, member, bounds⟩ := plain
  simp only [CaseTable.plainBlocks, List.mem_cons, List.not_mem_nil,
    or_false] at member
  constructor
  · unfold isBlank
    rcases member with rfl | rfl | rfl | rfl | rfl | rfl <;>
      simp <;> omega
  · intro ascii
    have letter : 0x61 ≤ character.toNat ∧ character.toNat ≤ 0x7A := by
      rcases member with rfl | rfl | rfl | rfl | rfl | rfl <;> omega
    exact isLower_of_bounds letter.1 letter.2

/-- What a table of runs in the blocks holds. -/
theorem isSmall_of_holds {runs : List CaseTable.Run}
    (plain : ∀ run ∈ runs, CaseTable.staysPlain run 0 = true)
    {character : Char}
    (held : runs.any (CaseTable.Run.holds character.toNat) = true) :
    IsSmall character := by
  obtain ⟨run, member, held⟩ := List.any_eq_true.mp held
  exact isSmall_of_isPlainCode <|
    CaseTable.isPlainCode_of_staysPlain (plain run member) held

theorem isSmall_ofNat {code : Nat} (plain : CaseTable.IsPlainCode code) :
    IsSmall (Char.ofNat code) := by
  have valid : code.isValidChar := by
    obtain ⟨block, member, bounds⟩ := plain
    simp only [CaseTable.plainBlocks, List.mem_cons, List.not_mem_nil,
      or_false] at member
    unfold Nat.isValidChar
    rcases member with rfl | rfl | rfl | rfl | rfl | rfl <;> omega
  have sameCode : (Char.ofNat code).toNat = code := by
    rw [Char.ofNat, dif_pos valid]
    rfl
  exact isSmall_of_isPlainCode (sameCode.symm ▸ plain)

theorem isSmall_toLower {letter : Char} (isUpper : letter.isUpper = true) :
    IsSmall letter.toLower := by
  have capital : 'A'.val ≤ letter.val ∧ letter.val ≤ 'Z'.val :=
    of_decide_eq_true isUpper
  have bounds : 0x41 ≤ letter.toNat ∧ letter.toNat ≤ 0x5A := capital
  have lowered : letter.toLower.toNat = letter.toNat + 0x20 := by
    have moved :
        letter.toLower.val = letter.val + ('a'.val - 'A'.val) :=
      congrArg Char.val (dif_pos capital)
    rw [Char.toNat, moved, UInt32.toNat_add]
    change (letter.toNat + 0x20) % 2 ^ 32 = _
    omega
  refine isSmall_of_isPlainCode
    ⟨(0x61, 0x7A), by simp [CaseTable.plainBlocks], ?_, ?_⟩ <;>
    simp only [lowered] <;> omega

theorem isSmall_of_mem_lowercaseChar {capital character : Char}
    (isCapital : isUppercase capital = true)
    (member : character ∈ lowercaseChar capital) : IsSmall character := by
  unfold isUppercase at isCapital
  unfold lowercaseChar at member
  by_cases ascii : capital.toNat < 128
  · simp only [ascii, if_true, List.mem_singleton] at isCapital member
    exact member ▸ isSmall_toLower isCapital
  simp only [ascii, if_false] at isCapital member
  by_cases dotted : capital.toNat = 0x130
  · simp only [dotted, beq_self_eq_true, if_true, List.mem_cons,
      List.not_mem_nil, or_false] at member
    rcases member with rfl | rfl <;>
      exact ⟨by decide, by decide⟩
  simp only [dotted, beq_iff_eq, if_false] at member
  split at member
  · rename_i run shift found
    have held : run.holds capital.toNat = true := by
      simpa using List.find?_some found
    rw [List.mem_singleton.mp member]
    exact isSmall_ofNat <| CaseTable.isPlainCode_of_staysPlain
      (CaseTable.staysPlain_lowercaseShift _ (List.mem_of_find?_eq_some found))
      held
  · -- Without an entry of its own a capital is its own lowercase form.
    rw [List.mem_singleton.mp member]
    exact isSmall_of_holds CaseTable.staysPlain_uppercase isCapital

theorem isBlank_of_isAlphanum {character : Char}
    (alphanumeric : character.isAlphanum = true) :
    isBlank character = false := by
  have bounds :
      ((65 ≤ character.toNat ∧ character.toNat ≤ 90) ∨
          (97 ≤ character.toNat ∧ character.toNat ≤ 122)) ∨
        (48 ≤ character.toNat ∧ character.toNat ≤ 57) := by
    change (decide (65 ≤ character.val ∧ character.val ≤ 90) ||
        decide (97 ≤ character.val) && decide (character.val ≤ 122) ||
        decide (48 ≤ character.val) && decide (character.val ≤ 57)) =
      true at alphanumeric
    simp only [Bool.or_eq_true, Bool.and_eq_true, decide_eq_true_eq,
      UInt32.le_iff_toNat_le] at alphanumeric
    exact alphanumeric
  simp only [isBlank, Bool.or_eq_false_iff, Bool.and_eq_false_iff,
    decide_eq_false_iff_not, beq_eq_false_iff_ne]
  omega

theorem lowercaseChar_ne_nil (character : Char) :
    lowercaseChar character ≠ [] := by
  rw [lowercaseChar]
  split
  · exact List.cons_ne_nil _ _
  split
  · exact List.cons_ne_nil _ _
  split <;> exact List.cons_ne_nil _ _

theorem isBlank_of_isUppercase {capital : Char}
    (isCapital : isUppercase capital = true) : isBlank capital = false := by
  unfold isUppercase at isCapital
  by_cases ascii : capital.toNat < 128
  · simp only [ascii, if_true] at isCapital
    apply isBlank_of_isAlphanum
    change (capital.isUpper || capital.isLower || capital.isDigit) = true
    rw [isCapital, Bool.true_or, Bool.true_or]
  · simp only [ascii, if_false] at isCapital
    exact (isSmall_of_holds CaseTable.staysPlain_uppercase isCapital).visible

theorem isBlank_of_isLowercase {letter : Char}
    (isSmall : isLowercase letter = true) : isBlank letter = false := by
  unfold isLowercase at isSmall
  by_cases ascii : letter.toNat < 128
  · simp only [ascii, if_true] at isSmall
    apply isBlank_of_isAlphanum
    change (letter.isUpper || letter.isLower || letter.isDigit) = true
    rw [isSmall, Bool.or_true, Bool.true_or]
  · simp only [ascii, if_false] at isSmall
    exact (isSmall_of_holds CaseTable.staysPlain_lowercase isSmall).visible

end ComponentDocs.Text
