import ComponentDocs.Proofs.Json.Literal

/-!
The text of every finite number is a literal of JSON and is read as a number.
-/

namespace ComponentDocs.Json

open Binary64 (IsStandard IsWritable writePlain writeScientific writeExponent
  writeDigits)

theorem isPower_writeExponent (exponent : Int) :
    IsPower (writeExponent exponent) := by
  rw [writeExponent]
  apply IsPower.written
  · split_ifs
    · exact .inr rfl
    · exact .inl rfl
  · exact List.ne_nil_of_length_pos (Text.length_ofNat_pos _)
  · exact fun _ => Text.isDigit_of_mem_ofNat

theorem isDigit_of_mem_zeros {count : Nat} {digit : Char}
    (member : digit ∈ List.replicate count '0') : digit.isDigit = true := by
  rw [List.eq_of_mem_replicate member]
  rfl

theorem isDigit_of_mem_zero : ∀ digit ∈ ['0'], digit.isDigit = true :=
  List.forall_mem_singleton.mpr rfl

namespace NumberText

section Digits

variable (digits : Text) (allDigits : ∀ digit ∈ digits, digit.isDigit = true)

/-- Digits behind the point, below as many zeros. -/
def small (zeros : Nat) : NumberText where
  whole := ['0']
  fraction := List.replicate zeros '0' ++ digits
  power := []
  wholeDigits := isDigit_of_mem_zero
  fractionDigits := by
    intro digit member
    rcases List.mem_append.mp member with zero | isDigit
    · exact isDigit_of_mem_zeros zero
    · exact allDigits digit isDigit
  headed := .inl rfl
  isPower := .none

/-- Digits with a point behind the first `place` of them. -/
def plain (place : Nat) (positive : 0 < place) (nonempty : digits ≠ [])
    (headed : digits.head? ≠ some '0') : NumberText where
  whole := digits.take place ++ List.replicate (place - digits.length) '0'
  fraction :=
    if (digits.drop place).isEmpty then ['0'] else digits.drop place
  power := []
  wholeDigits := by
    intro digit member
    rcases List.mem_append.mp member with isDigit | zero
    · exact allDigits digit (List.mem_of_mem_take isDigit)
    · exact isDigit_of_mem_zeros zero
  fractionDigits := by
    split_ifs
    · exact isDigit_of_mem_zero
    · intro digit member
      exact allDigits digit (List.mem_of_mem_drop member)
  headed := by
    obtain ⟨first, rest, rfl⟩ := List.exists_cons_of_ne_nil nonempty
    obtain ⟨before, rfl⟩ := Nat.exists_eq_add_one.mpr positive
    refine .inr ⟨first, _, rfl, ?_⟩
    rintro rfl
    exact headed rfl
  isPower := .none

/-- Digits with a point behind the first, if there are more, and a power of
ten. -/
def scientific (first : Char) (rest : Text)
    (allDigits : ∀ digit ∈ first :: rest, digit.isDigit = true)
    (headed : first ≠ '0') (exponent : Int) : NumberText where
  whole := [first]
  fraction := rest
  power := writeExponent exponent
  wholeDigits := by
    intro digit member
    exact allDigits digit (List.mem_singleton.mp member ▸ List.mem_cons_self)
  fractionDigits := (List.forall_mem_cons.mp allDigits).2
  headed := .inr ⟨first, [], rfl, headed⟩
  isPower := isPower_writeExponent exponent

end Digits

theorem text_scientific (first : Char) (rest : Text)
    (allDigits : ∀ digit ∈ first :: rest, digit.isDigit = true)
    (headed : first ≠ '0') (exponent : Int) :
    (scientific first rest allDigits headed exponent).text =
      writeScientific (first :: rest) exponent := by
  cases rest with
  | nil => rfl
  | cons second others => simp [text, point, scientific, writeScientific]

theorem value_lt (number : NumberText) :
    Nat.ofDigitChars 10 (number.whole ++ number.fraction) 0 <
      10 ^ (number.whole ++ number.fraction).length := by
  apply Text.ofDigitChars_lt
  intro digit member
  rcases List.mem_append.mp member with inWhole | inFraction
  · exact number.wholeDigits digit inWhole
  · exact number.fractionDigits digit inFraction

section Plain

variable {digits : Text}
  {allDigits : ∀ digit ∈ digits, digit.isDigit = true}
  (nonempty : digits ≠ [])

include nonempty in
theorem text_small (place : Int) (notPositive : place ≤ 0) :
    (small digits allDigits (-place).toNat).text = writePlain digits place := by
  have fraction : (List.replicate (-place).toNat '0' ++ digits).isEmpty =
      false := by
    simpa using fun _ => nonempty
  rw [writePlain, if_pos notPositive]
  simp [text, point, small, fraction]

theorem text_plain {place : Nat} {positive : 0 < place}
    {headed : digits.head? ≠ some '0'} :
    (plain digits allDigits place positive nonempty headed).text =
      writePlain digits place := by
  have isPositive : ¬ (place : Int) ≤ 0 := by omega
  rw [writePlain, if_neg isPositive]
  cases fraction : (digits.drop place).isEmpty with
  | true => simp [text, point, plain, fraction]
  | false => simp [text, point, plain, fraction]

include nonempty in
theorem isSome_number?_small (zeros : Nat)
    (fits : Nat.ofDigitChars 10 digits 0 ≤ greatestNatural) :
    (Literal.unsignedNumber?
      (small digits allDigits zeros).text).isSome = true := by
  have value : Nat.ofDigitChars 10
        (['0'] ++ (List.replicate zeros '0' ++ digits)) 0 =
      Nat.ofDigitChars 10 digits 0 := by
    rw [Nat.ofDigitChars_append, Nat.ofDigitChars_append]
    have zero : Nat.ofDigitChars 10 ['0'] 0 = 0 := rfl
    rw [zero, Nat.ofDigitChars_replicate_zero, Nat.mul_zero]
  rw [unsignedNumber?_text]
  apply Literal.isSome_ofParts?_of_fraction
  · rw [← value] at fits
    exact fits
  · exact List.append_ne_nil_of_right_ne_nil _ nonempty

section Parts

variable {place : Nat} {positive : 0 < place}
  {headed : digits.head? ≠ some '0'}

theorem length_whole_plain :
    (plain digits allDigits place positive nonempty headed).whole.length =
      place := by
  change (digits.take place ++
    List.replicate (place - digits.length) '0').length = place
  rw [List.length_append, List.length_take, List.length_replicate]
  omega

theorem length_fraction_plain_le :
    (plain digits allDigits place positive nonempty headed).fraction.length ≤
      max 1 (digits.length - place) := by
  unfold plain
  dsimp only
  split_ifs
  · exact Nat.le_max_left _ _
  · rw [List.length_drop]
    exact Nat.le_max_right _ _

theorem fraction_plain_ne_nil :
    (plain digits allDigits place positive nonempty headed).fraction ≠ [] := by
  unfold plain
  dsimp only
  split_ifs with isEmpty
  · exact List.cons_ne_nil _ _
  · simpa using isEmpty

/-- Up to sixteen places before the point and eighteen digits in all fit into
64 bits. -/
theorem isSome_number?_plain (few : digits.length ≤ 18)
    (moderate : place ≤ 16) :
    (Literal.unsignedNumber?
      (plain digits allDigits place positive nonempty
        headed).text).isSome = true := by
  have length :
      ((plain digits allDigits place positive nonempty headed).whole ++
        (plain digits allDigits place positive nonempty
          headed).fraction).length ≤ 18 := by
    have fraction :
        (plain digits allDigits place positive nonempty
          headed).fraction.length ≤ max 1 (digits.length - place) :=
      length_fraction_plain_le nonempty
    rw [List.length_append, length_whole_plain]
    omega
  rw [unsignedNumber?_text]
  apply Literal.isSome_ofParts?_of_fraction
  · refine (NumberText.value_lt _).le.trans ?_
    exact (Nat.pow_le_pow_right (by decide) length).trans (by decide)
  · exact fraction_plain_ne_nil nonempty

end Parts

end Plain

theorem isSome_number?_scientific {first : Char} {rest : Text}
    {allDigits : ∀ digit ∈ first :: rest, digit.isDigit = true}
    {headed : first ≠ '0'} {power : Int}
    (fits : Nat.ofDigitChars 10 (first :: rest) 0 ≤ greatestNatural)
    (short : rest.length + power ≤ Literal.greatestExponent)
    (isNumber : (Literal.scaled? (Nat.ofDigitChars 10 (first :: rest) 0)
      power).isSome = true) :
    (Literal.unsignedNumber?
      (scientific first rest allDigits headed
        (rest.length + power)).text).isSome = true := by
  rw [unsignedNumber?_text]
  apply Literal.isSome_ofParts?_of_exponent fits short
  have same : (rest.length : Int) + power - rest.length = power := by omega
  change (Literal.scaled? (Nat.ofDigitChars 10 (first :: rest) 0)
    ((rest.length : Int) + power - rest.length)).isSome = true
  rw [same]
  exact isNumber

end NumberText

/-! ## Numbers that are written -/

section Digits

variable {digits : Text}
  (allDigits : ∀ digit ∈ digits, digit.isDigit = true) (nonempty : digits ≠ [])
  (headed : digits.head? ≠ some '0') (few : digits.length ≤ 18)
  (fits : Nat.ofDigitChars 10 digits 0 ≤ greatestNatural)

include allDigits nonempty headed few fits

theorem exists_text_writePlain {place : Int} (moderate : place ≤ 16) :
    ∃ number : NumberText,
      number.text = writePlain digits place ∧
        (Literal.unsignedNumber? number.text).isSome = true := by
  rcases Int.lt_or_le 0 place with positive | notPositive
  · obtain ⟨place, rfl⟩ := Int.eq_ofNat_of_zero_le positive.le
    have positive : 0 < place := by exact_mod_cast positive
    have moderate : place ≤ 16 := by exact_mod_cast moderate
    exact ⟨.plain digits allDigits place positive nonempty headed,
      NumberText.text_plain nonempty,
      NumberText.isSome_number?_plain nonempty few moderate⟩
  · exact ⟨.small digits allDigits (-place).toNat,
      NumberText.text_small nonempty _ notPositive,
      NumberText.isSome_number?_small nonempty _ fits⟩

theorem exists_text_writeScientific {power : Int}
    (inReach : power ≤ Literal.greatestPower)
    (isNumber : (Literal.scaled? (Nat.ofDigitChars 10 digits 0)
      power).isSome = true) :
    ∃ number : NumberText,
      number.text = writeScientific digits (digits.length + power - 1) ∧
        (Literal.unsignedNumber? number.text).isSome = true := by
  obtain ⟨first, rest, rfl⟩ := List.exists_cons_of_ne_nil nonempty
  have notZero : first ≠ '0' := by
    rintro rfl
    exact headed rfl
  have same : ((first :: rest).length : Int) + power - 1 =
      rest.length + power := by
    rw [List.length_cons]
    omega
  have short : rest.length + power ≤ Literal.greatestExponent := by
    have limit : Literal.greatestExponent = 2147483647 := rfl
    rw [List.length_cons] at few
    unfold Literal.greatestPower at inReach
    omega
  rw [same]
  exact ⟨.scientific first rest allDigits notZero (rest.length + power),
    NumberText.text_scientific _ _ _ _ _,
    NumberText.isSome_number?_scientific fits short isNumber⟩

end Digits

/-- The text of writable digits is a literal, and the literal is a number. -/
theorem exists_text_writeDigits {digits : Nat} {power : Int}
    (writable : IsWritable digits power) :
    ∃ number : NumberText,
      number.text = writeDigits (Text.ofNat digits) power ∧
        (Literal.unsignedNumber? number.text).isSome = true := by
  have allDigits : ∀ digit ∈ Text.ofNat digits, digit.isDigit = true :=
    fun _ => Text.isDigit_of_mem_ofNat
  have nonempty : Text.ofNat digits ≠ [] :=
    List.ne_nil_of_length_pos (Text.length_ofNat_pos digits)
  have headed := Text.head?_ofNat_ne_zero writable.positive
  have value := Text.ofDigitChars_ofNat digits
  have few : (Text.ofNat digits).length ≤ 18 := by
    apply (Text.length_ofNat_le_iff (by decide)).mpr
    exact lt_of_le_of_lt writable.small (by decide)
  have fits : Nat.ofDigitChars 10 (Text.ofNat digits) 0 ≤ greatestNatural := by
    rw [value]
    exact le_trans writable.small (by decide)
  unfold writeDigits
  dsimp only
  split_ifs with moderate
  · have bounds : Binary64.leastPlain < (Text.ofNat digits).length + power ∧
        ((Text.ofNat digits).length : Int) + power ≤ Binary64.endPlain := by
      simpa using moderate
    exact exists_text_writePlain allDigits nonempty headed few fits bounds.2
  · have isNumber : (Literal.scaled?
        (Nat.ofDigitChars 10 (Text.ofNat digits) 0) power).isSome = true := by
      rw [value]
      exact Literal.isSome_scaled? writable
    have inReach : power ≤ Literal.greatestPower := by
      rcases Int.lt_or_le power 0 with isNegative | isNatural
      · unfold Literal.greatestPower
        omega
      · obtain ⟨power, rfl⟩ := Int.eq_ofNat_of_zero_le isNatural
        exact_mod_cast Literal.power_le_greatestPower writable
    exact exists_text_writeScientific allDigits nonempty headed few fits
      inReach isNumber

/-- The digits of a finite number, or those of zero, are a literal and a
number. -/
theorem exists_text_finite {negative : Bool} {significand : Nat}
    {exponent : Int}
    (standard : IsStandard (.finite negative significand exponent)) :
    ∃ number : NumberText,
      number.text =
          (if significand = 0 then "0.0".toList
          else writeDigits
            (Text.ofNat (Binary64.shortest significand exponent).1)
            (Binary64.shortest significand exponent).2) ∧
        (Literal.unsignedNumber? number.text).isSome = true := by
  have zero : ∃ number : NumberText, number.text = "0.0".toList ∧
      (Literal.unsignedNumber? number.text).isSome = true :=
    ⟨.small ['0'] isDigit_of_mem_zero 0, rfl, rfl⟩
  by_cases isZero : significand = 0
  · rw [if_pos isZero]
    exact zero
  · rw [if_neg isZero]
    rcases Binary64.isWritable_shortest standard (Nat.pos_of_ne_zero isZero)
      with nothing | writable
    · rw [nothing]
      exact zero
    · exact exists_text_writeDigits writable

/-- The text of a finite number, with its sign if it has one, is a literal and
is read as a number. -/
theorem number_write? {number : Binary64} (standard : number.IsStandard)
    {literal : Text} (written : number.write? = some literal) :
    Literal.IsWhole literal ∧ (Literal.number? literal).isSome = true := by
  cases number with
  | nan => cases written
  | infinite negative => cases written
  | finite negative significand exponent =>
      obtain ⟨parts, text, isNumber⟩ :=
        exists_text_finite standard
      rw [Binary64.write?, ← text, Option.some.injEq] at written
      rw [← written]
      cases negative with
      | false =>
          refine ⟨parts.isWhole_text, ?_⟩
          rw [if_neg Bool.false_ne_true, parts.number?_text]
          exact isNumber
      | true =>
          refine ⟨parts.isWhole_minus_text, ?_⟩
          rw [if_pos rfl, Literal.number?, Option.isSome_map]
          exact isNumber

end ComponentDocs.Json
