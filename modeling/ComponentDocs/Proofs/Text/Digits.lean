import Mathlib.Algebra.Order.Ring.Nat
import Mathlib.Data.List.TakeWhile
import Mathlib.Tactic.Common
import ComponentDocs.Text.Basic

/-!
Runs of decimal digits: what they stand for, how many of them a number has, and
where a run ends.
-/

namespace ComponentDocs.Text

theorem toNat?_eq_ofDigitChars {digits : Text} (nonempty : digits ≠ [])
    (allDigits : ∀ digit ∈ digits, digit.isDigit = true) :
    toNat? digits = some (Nat.ofDigitChars 10 digits 0) := by
  have zero : '0'.toNat = 48 := rfl
  have all : digits.all Char.isDigit = true := List.all_eq_true.mpr allDigits
  simp [toNat?, nonempty, all, Nat.ofDigitChars_eq_foldl, zero, Nat.mul_comm]

theorem toNat_of_isDigit {digit : Char} (isDigit : digit.isDigit = true) :
    48 ≤ digit.toNat ∧ digit.toNat ≤ 57 := by
  simp only [Char.isDigit, ge_iff_le, Bool.and_eq_true, decide_eq_true_eq,
    UInt32.le_iff_toNat_le] at isDigit
  exact isDigit

theorem isBlank_of_isDigit {character : Char}
    (digit : character.isDigit = true) : isBlank character = false := by
  have bounds := toNat_of_isDigit digit
  simp only [isBlank, Bool.or_eq_false_iff, Bool.and_eq_false_iff,
    decide_eq_false_iff_not, beq_eq_false_iff_ne]
  omega

/-! ## The digits of a number -/

theorem isDigit_of_mem_ofNat {number : Nat} {digit : Char}
    (member : digit ∈ ofNat number) : digit.isDigit = true :=
  Nat.isDigit_of_mem_toDigits (by decide) (by decide) member

theorem ofDigitChars_ofNat (number : Nat) :
    Nat.ofDigitChars 10 (ofNat number) 0 = number :=
  Nat.ofDigitChars_toDigits (by decide) (by decide)

theorem length_ofNat_pos (number : Nat) : 0 < (ofNat number).length :=
  Nat.length_toDigits_pos

theorem length_ofNat_le_iff {number length : Nat} (positive : 0 < length) :
    (ofNat number).length ≤ length ↔ number < 10 ^ length :=
  Nat.length_toDigits_le_iff (by decide) positive

theorem lt_pow_length_ofNat (number : Nat) :
    number < 10 ^ (ofNat number).length :=
  (length_ofNat_le_iff (length_ofNat_pos number)).mp (Nat.le_refl _)

theorem pow_length_ofNat_le {number : Nat} (nonzero : 0 < number) :
    10 ^ ((ofNat number).length - 1) ≤ number := by
  rcases Nat.eq_zero_or_pos ((ofNat number).length - 1) with isZero | positive
  · rw [isZero]
    exact nonzero
  · by_contra less
    have short : (ofNat number).length ≤ (ofNat number).length - 1 :=
      (length_ofNat_le_iff positive).mpr (not_le.mp less)
    omega

/-- No number but zero starts with a zero. -/
theorem head?_ofNat_ne_zero {number : Nat} (nonzero : 0 < number) :
    (ofNat number).head? ≠ some '0' := by
  induction number using Nat.strongRecOn with
  | ind number inductionHypothesis =>
      rw [ofNat, Nat.toDigits_eq_if (by decide)]
      split_ifs with single
      · have small : ∀ digit : Nat, digit < 10 → 0 < digit →
            digit.digitChar ≠ '0' := by
          decide
        simpa using small number single nonzero
      · have earlier := inductionHypothesis (number / 10)
          (Nat.div_lt_self nonzero (by decide)) (by omega)
        obtain ⟨first, others, digits⟩ :=
          List.exists_cons_of_ne_nil (Nat.toDigits_ne_nil (n := number / 10) (b := 10))
        rw [ofNat, digits] at earlier
        rw [digits]
        exact earlier

/-! ## Runs of digits -/

theorem le_ofDigitChars (digits : Text) (value : Nat) :
    value ≤ Nat.ofDigitChars 10 digits value := by
  rw [Nat.ofDigitChars_eq_ofDigitChars_zero]
  have grows := Nat.le_mul_of_pos_left value
    (Nat.pow_pos (n := digits.length) (show 0 < 10 by decide))
  omega

/-- A text that does not go on with a digit. -/
def StopsDigits (rest : Text) : Prop :=
  ∀ first, rest.head? = some first → first.isDigit = false

section Run

variable {digits rest : Text}
  (allDigits : ∀ digit ∈ digits, digit.isDigit = true)

theorem ofDigitChars_lt
    (allDigits : ∀ digit ∈ digits, digit.isDigit = true) :
    Nat.ofDigitChars 10 digits 0 < 10 ^ digits.length := by
  induction digits with
  | nil =>
      decide
  | cons digit digits inductionHypothesis =>
      obtain ⟨isDigit, others⟩ := List.forall_mem_cons.mp allDigits
      have bounds := toNat_of_isDigit isDigit
      have less := inductionHypothesis others
      have zero : '0'.toNat = 48 := rfl
      rw [Nat.ofDigitChars_cons, Nat.ofDigitChars_eq_ofDigitChars_zero,
        List.length_cons, Nat.pow_succ, zero, Nat.mul_zero, Nat.zero_add]
      have most := Nat.mul_le_mul_left (10 ^ digits.length)
        (show digit.toNat - 48 ≤ 9 by omega)
      omega

include allDigits

theorem takeWhile_digits (stops : StopsDigits rest) :
    (digits ++ rest).takeWhile Char.isDigit = digits := by
  rw [List.takeWhile_append_of_pos allDigits]
  cases rest with
  | nil =>
      exact List.append_nil digits
  | cons first others =>
      have fails := stops first rfl
      rw [List.takeWhile_cons_of_neg (by simp [fails]), List.append_nil]

theorem dropWhile_digits (stops : StopsDigits rest) :
    (digits ++ rest).dropWhile Char.isDigit = rest := by
  rw [List.dropWhile_append_of_pos allDigits]
  cases rest with
  | nil =>
      rfl
  | cons first others =>
      have fails := stops first rfl
      rw [List.dropWhile_cons_of_neg (by simp [fails])]

end Run

end ComponentDocs.Text
