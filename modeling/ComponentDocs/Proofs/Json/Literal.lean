import ComponentDocs.Proofs.Json.Number
import ComponentDocs.Proofs.Json.Pretty
import ComponentDocs.Proofs.Text.Digits

/-!
The text of a number is one literal, and the literal is read as a number.
-/

namespace ComponentDocs.Json

open Text (StopsDigits takeWhile_digits dropWhile_digits)

/-! ## The parts of a literal -/

/-- The power of ten at the end of a literal, with its mark and its sign. -/
inductive IsPower : Text → Prop
  | none : IsPower []
  | written {sign : Char} {digits : Text} (isSign : sign = '+' ∨ sign = '-')
      (nonempty : digits ≠ [])
      (allDigits : ∀ digit ∈ digits, digit.isDigit = true) :
      IsPower ('e' :: sign :: digits)

theorem EndsValue.stopsDigits {rest : Text} (ends : EndsValue rest) :
    StopsDigits rest := by
  intro first starts
  have oneOf := ends first starts
  simp only [List.mem_cons, List.not_mem_nil, or_false] at oneOf
  rcases oneOf with rfl | rfl | rfl | rfl <;> rfl

theorem stopsDigits_cons {first : Char} (notDigit : first.isDigit = false)
    (rest : Text) : StopsDigits (first :: rest) := by
  intro other starts
  rw [List.head?_cons, Option.some.injEq] at starts
  rw [← starts]
  exact notDigit

namespace IsPower

variable {power rest : Text} (isPower : IsPower power)

include isPower

theorem stopsDigits (stops : StopsDigits rest) : StopsDigits (power ++ rest) := by
  cases isPower with
  | none => exact stops
  | written isSign nonempty allDigits => exact stopsDigits_cons rfl _

theorem head?_ne_point (ends : EndsValue rest) :
    (power ++ rest).head? ≠ some '.' := by
  cases isPower with
  | none =>
      intro starts
      exact absurd (ends '.' starts) (by decide)
  | written isSign nonempty allDigits =>
      intro starts
      exact absurd (Option.some.inj starts) (by decide)

theorem exponent_append (ends : EndsValue rest) :
    Literal.exponent (power ++ rest) = (power, rest) := by
  cases isPower with
  | none =>
      cases rest with
      | nil => rfl
      | cons first others =>
          have oneOf := ends first rfl
          have notMark : first ≠ 'e' ∧ first ≠ 'E' := by
            constructor
            · rintro rfl
              exact absurd oneOf (by decide)
            · rintro rfl
              exact absurd oneOf (by decide)
          simp [Literal.exponent, notMark]
  | @written sign digits isSign nonempty allDigits =>
      have taken := takeWhile_digits allDigits ends.stopsDigits
      have left := dropWhile_digits allDigits ends.stopsDigits
      have split : Literal.exponentSign (sign :: (digits ++ rest)) =
          ([sign], digits ++ rest) := by
        rcases isSign with rfl | rfl <;> rfl
      simp [Literal.exponent, split, taken, left, nonempty]

end IsPower

/-- A literal without sign, in parts. Only a zero alone starts with a zero. -/
structure NumberText where
  whole : Text
  fraction : Text
  power : Text
  wholeDigits : ∀ digit ∈ whole, digit.isDigit = true
  fractionDigits : ∀ digit ∈ fraction, digit.isDigit = true
  headed : whole = ['0'] ∨ ∃ first rest, whole = first :: rest ∧ first ≠ '0'
  isPower : IsPower power

namespace NumberText

/-- The digits behind the point, with the point. -/
def point (number : NumberText) : Text :=
  if number.fraction.isEmpty then [] else '.' :: number.fraction

def text (number : NumberText) : Text :=
  number.whole ++ (number.point ++ number.power)

variable (number : NumberText) {rest : Text}

theorem point_eq :
    (number.fraction = [] ∧ number.point = []) ∨
      (number.fraction ≠ [] ∧ number.point = '.' :: number.fraction) := by
  unfold point
  cases number.fraction with
  | nil => exact .inl ⟨rfl, rfl⟩
  | cons first others => exact .inr ⟨List.cons_ne_nil _ _, rfl⟩

theorem stopsDigits_point (stops : StopsDigits rest) :
    StopsDigits (number.point ++ rest) := by
  rcases number.point_eq with ⟨-, point⟩ | ⟨-, point⟩
  · rw [point]
    exact stops
  · rw [point]
    exact stopsDigits_cons rfl _

theorem whole?_append (stops : StopsDigits rest) :
    Literal.whole? (number.whole ++ rest) = some (number.whole, rest) := by
  have wholeDigits := number.wholeDigits
  rcases number.headed with zero | ⟨first, others, parts, notZero⟩
  · rw [zero]
    rfl
  · rw [parts] at wholeDigits ⊢
    obtain ⟨isDigit, allDigits⟩ := List.forall_mem_cons.mp wholeDigits
    rw [List.cons_append, Literal.whole?, if_neg notZero, if_pos isDigit,
      takeWhile_digits allDigits stops, dropWhile_digits allDigits stops]

theorem fraction_append (stops : StopsDigits rest)
    (noPoint : rest.head? ≠ some '.') :
    Literal.fraction (number.point ++ rest) = (number.point, rest) := by
  rcases number.point_eq with ⟨-, point⟩ | ⟨nonempty, point⟩
  · rw [point, List.nil_append, Literal.fraction]
    intro others starts
    rw [starts] at noPoint
    exact noPoint rfl
  · have taken := takeWhile_digits number.fractionDigits stops
    have left := dropWhile_digits number.fractionDigits stops
    rw [point, List.cons_append, Literal.fraction, taken, left, if_neg]
    simpa using nonempty

/-- A literal is read up to its end. -/
theorem unsigned?_text (ends : EndsValue rest) :
    Literal.unsigned? (number.text ++ rest) = some (number.text, rest) := by
  have stops := number.isPower.stopsDigits ends.stopsDigits
  have whole := number.whole?_append (number.stopsDigits_point stops)
  have fraction := number.fraction_append stops
    (number.isPower.head?_ne_point ends)
  have power := number.isPower.exponent_append ends
  have parts : number.text ++ rest =
      number.whole ++ (number.point ++ (number.power ++ rest)) := by
    simp [text]
  rw [parts, Literal.unsigned?, whole, Option.map_some]
  simp only [fraction, power, text, List.append_assoc]

theorem exists_text_eq_cons :
    ∃ first others, number.text = first :: others ∧ first.isDigit = true := by
  have wholeDigits := number.wholeDigits
  have nonempty : number.whole ≠ [] := by
    rcases number.headed with zero | ⟨first, others, parts, -⟩
    · rw [zero]
      exact List.cons_ne_nil _ _
    · rw [parts]
      exact List.cons_ne_nil _ _
  obtain ⟨first, others, parts⟩ := List.exists_cons_of_ne_nil nonempty
  rw [parts] at wholeDigits
  refine ⟨first, others ++ (number.point ++ number.power), ?_,
    wholeDigits first List.mem_cons_self⟩
  rw [text, parts, List.cons_append]

theorem isWhole_text : Literal.IsWhole number.text := by
  intro rest ends
  have read := number.unsigned?_text ends
  obtain ⟨first, others, text, isDigit⟩ := number.exists_text_eq_cons
  rw [text] at read ⊢
  rw [List.cons_append] at read ⊢
  rw [Literal.read?]
  · exact read
  · intro after minus
    rw [(List.cons.inj minus).1] at isDigit
    exact absurd isDigit (by decide)

theorem isWhole_minus_text : Literal.IsWhole ('-' :: number.text) := by
  intro rest ends
  rw [List.cons_append, Literal.read?, number.unsigned?_text ends]
  rfl

/-! ## The number of a literal -/

theorem unsignedNumber?_text :
    Literal.unsignedNumber? number.text =
      Literal.ofParts? number.whole number.fraction number.power.tail := by
  have noEnd : EndsValue [] := by
    intro first starts
    cases starts
  have stops : StopsDigits number.power := by
    have stops := number.isPower.stopsDigits noEnd.stopsDigits
    rwa [List.append_nil] at stops
  have noPoint : number.power.head? ≠ some '.' := by
    have noPoint := number.isPower.head?_ne_point noEnd
    rwa [List.append_nil] at noPoint
  have pointStops := number.stopsDigits_point stops
  have split : Literal.splitPoint (number.point ++ number.power) =
      (number.fraction, number.power) := by
    rcases number.point_eq with ⟨empty, point⟩ | ⟨-, point⟩
    · rw [point, empty, List.nil_append, Literal.splitPoint]
      intro others starts
      rw [starts] at noPoint
      exact noPoint rfl
    · rw [point, List.cons_append, Literal.splitPoint,
        takeWhile_digits number.fractionDigits stops,
        dropWhile_digits number.fractionDigits stops]
  rw [Literal.unsignedNumber?, text,
    takeWhile_digits number.wholeDigits pointStops,
    dropWhile_digits number.wholeDigits pointStops, split]

theorem number?_text :
    Literal.number? number.text = Literal.unsignedNumber? number.text := by
  obtain ⟨first, others, text, isDigit⟩ := number.exists_text_eq_cons
  rw [text, Literal.number?]
  intro rest minus
  rw [(List.cons.inj minus).1] at isDigit
  exact absurd isDigit (by decide)

end NumberText

namespace Literal

/-- Digits that fit into 64 bits are all added. -/
theorem addDigits_eq {digits : Text}
    (significand : Nat)
    (fits : Nat.ofDigitChars 10 digits significand ≤ greatestNatural) :
    addDigits significand digits =
      (Nat.ofDigitChars 10 digits significand, []) := by
  induction digits generalizing significand with
  | nil =>
      rfl
  | cons digit digits inductionHypothesis =>
      have zero : '0'.toNat = 48 := rfl
      rw [Nat.ofDigitChars_cons, zero, Nat.mul_comm] at fits ⊢
      have grows := Text.le_ofDigitChars digits
        (significand * 10 + (digit.toNat - 48))
      have notTooGreat : ¬ greatestNatural <
          significand * 10 + (digit.toNat - 48) :=
        Nat.not_lt.mpr (le_trans grows fits)
      rw [addDigits, if_neg notTooGreat, inductionHypothesis _ fits]

theorem exponentSign_writeExponent (exponent : Int) :
    exponentSign (Binary64.writeExponent exponent).tail =
      ([if exponent < 0 then '-' else '+'], Text.ofNat exponent.natAbs) := by
  rw [Binary64.writeExponent]
  split_ifs
  · rfl
  · rfl

theorem digitsValue_ofNat (value : Nat) :
    Binary64.digitsValue (Text.ofNat value) = value := by
  rw [Binary64.digitsValue, Text.toNat?_eq_ofDigitChars
    (List.ne_nil_of_length_pos (Text.length_ofNat_pos _))
    fun _ => Text.isDigit_of_mem_ofNat, Text.ofDigitChars_ofNat]
  rfl

section Parts

variable {whole fraction : Text}
  (fits : Nat.ofDigitChars 10 (whole ++ fraction) 0 ≤ greatestNatural)

include fits

theorem ofParts?_eq (power : Text) :
    ofParts? whole fraction power =
      let significand := Nat.ofDigitChars 10 (whole ++ fraction) 0
      let (sign, digits) := exponentSign power
      let size := Binary64.digitsValue digits
      if sign = ['-'] then
        if greatestExponent < size then some (Binary64.zero false)
        else scaled? significand (-fraction.length - size)
      else if greatestExponent < size then
        if significand = 0 then some (Binary64.zero false) else none
      else scaled? significand (-fraction.length + size) := by
  rw [Nat.ofDigitChars_append] at fits
  have wholeFits : Nat.ofDigitChars 10 whole 0 ≤ greatestNatural :=
    le_trans (Text.le_ofDigitChars _ _) fits
  rw [ofParts?, addDigits_eq 0 wholeFits]
  dsimp only
  rw [addDigits_eq _ fits, Nat.ofDigitChars_append]
  simp

/-- Without a power of ten a literal with a point is always a number. -/
theorem isSome_ofParts?_of_fraction (nonempty : fraction ≠ []) :
    (ofParts? whole fraction []).isSome = true := by
  have some := List.length_pos_of_ne_nil nonempty
  have noSize : Binary64.digitsValue [] = 0 := rfl
  rw [ofParts?_eq fits, exponentSign]
  · dsimp only
    rw [noSize, if_neg (by decide), if_neg (by decide)]
    exact isSome_scaled?_of_neg _ (by omega)
  · intro rest starts
    cases starts
  · intro rest starts
    cases starts

/-- With a power of ten a literal is a number if what it counts is one. -/
theorem isSome_ofParts?_of_exponent {exponent : Int}
    (short : exponent ≤ greatestExponent)
    (isNumber : (scaled? (Nat.ofDigitChars 10 (whole ++ fraction) 0)
      (exponent - fraction.length)).isSome = true) :
    (ofParts? whole fraction
      (Binary64.writeExponent exponent).tail).isSome = true := by
  rw [ofParts?_eq fits, exponentSign_writeExponent]
  dsimp only
  rw [digitsValue_ofNat]
  by_cases isNegative : exponent < 0
  · rw [if_pos isNegative, if_pos rfl]
    split_ifs
    · rfl
    · have same : -(fraction.length : Int) - exponent.natAbs =
          exponent - fraction.length := by
        omega
      rw [same]
      exact isNumber
  · have notTooGreat : ¬ greatestExponent < exponent.natAbs := by
      omega
    have same : -(fraction.length : Int) + exponent.natAbs =
        exponent - fraction.length := by
      omega
    rw [if_neg isNegative, if_neg (by decide), if_neg notTooGreat, same]
    exact isNumber

end Parts

end Literal

end ComponentDocs.Json
