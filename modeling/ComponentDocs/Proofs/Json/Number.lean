import ComponentDocs.Json.Literal
import ComponentDocs.Proofs.Number.Shortest

/-!
A number that is written is not too great to be read.

Reading rounds the digits, the power of ten and their product. Digits that
count a small power of ten stay far below the overflow bound. Those that count
a great one have so few places that the three roundings do not reach it; only
the digits of the greatest number need to be looked at one by one.
-/

namespace ComponentDocs.Json.Literal

open Binary64

/-! ## Rounded digits -/

/-- By how much rounding increases a whole number at most. -/
def growth : ℚ := 1 + 1 / 2 ^ 53

theorem growth_pos : 0 < growth := by
  norm_num [growth]

theorem ofNat_le_growth {value : Nat} (nonzero : 0 < value)
    (inRange : (value : ℚ) < overflow) :
    ∃ significand exponent,
      Binary64.ofNat value = .finite false significand exponent ∧
        absolute significand exponent ≤ value * growth := by
  obtain ⟨significand, exponent, unit, finite, bound, fine⟩ :=
    ofNat_of_lt_overflow nonzero inRange
  refine ⟨significand, exponent, finite, le_trans bound ?_⟩
  rw [zpow_add₀ two_ne_zero] at fine
  rw [growth, mul_add, mul_one]
  have half : (2 : ℚ) ^ unit / 2 ≤ value * (1 / 2 ^ 53) := by
    norm_num at fine ⊢
    linarith
  linarith

/-- The overflow bound has as many digits as the greatest power of ten that is
read. -/
theorem overflowNumber_bounds :
    10 ^ greatestPower < overflowNumber ∧
      overflowNumber < 10 ^ (greatestPower + 1) := by
  decide +kernel

theorem lt_overflow_of_le {value power : Nat} (small : value ≤ 10 ^ power)
    (most : power ≤ greatestPower) : (value : ℚ) < overflow := by
  have bound : value < overflowNumber :=
    lt_of_le_of_lt (le_trans small (Nat.pow_le_pow_right (by decide) most))
      overflowNumber_bounds.1
  rw [overflow_eq]
  exact_mod_cast bound

theorem ofNat_le_succ {digits : Nat} (nonzero : 0 < digits)
    (small : digits < 2 ^ 54) :
    ∃ significand exponent,
      Binary64.ofNat digits = .finite false significand exponent ∧
        absolute significand exponent ≤ (digits + 1 : Nat) := by
  have inRange : (digits : ℚ) < overflow :=
    lt_overflow_of_le (le_trans small.le (by decide : 2 ^ 54 ≤ 10 ^ 17))
      (by decide)
  obtain ⟨significand, exponent, unit, finite, bound, fine⟩ :=
    ofNat_of_lt_overflow nonzero inRange
  refine ⟨significand, exponent, finite, le_trans bound ?_⟩
  have below : (2 : ℚ) ^ (unit + 52) < 2 ^ (54 : Int) :=
    lt_of_le_of_lt fine (by exact_mod_cast small)
  have exponents := (zpow_lt_zpow_iff_right₀ one_lt_two).mp below
  have unitBound : (2 : ℚ) ^ unit ≤ 2 ^ (1 : Int) :=
    zpow_le_zpow_right₀ one_le_two (by omega)
  rw [zpow_one] at unitBound
  rw [Nat.cast_add, Nat.cast_one]
  linarith

/-- Digits up to those of the greatest number are not rounded above the digits
before them. -/
theorem ofNat_le_greatestDigits {digits : Nat} (nonzero : 0 < digits)
    (most : digits ≤ greatestDigits) :
    ∃ significand exponent,
      Binary64.ofNat digits = .finite false significand exponent ∧
        absolute significand exponent ≤ (greatestDigits - 1 : Nat) := by
  by_cases fewer : digits + 1 ≤ greatestDigits - 1
  · have bits : greatestDigits < 2 ^ 54 := by decide
    obtain ⟨significand, exponent, finite, bound⟩ :=
      ofNat_le_succ nonzero (by omega)
    exact ⟨significand, exponent, finite,
      le_trans bound (by exact_mod_cast fewer)⟩
  · -- The last two are rounded to the same number, the even one.
    have rounded : Binary64.ofNat digits =
        .finite false 8988465674311578 1 := by
      have last : digits = greatestDigits - 1 ∨ digits = greatestDigits := by
        have positive : 0 < greatestDigits := by decide
        omega
      rcases last with rfl | rfl
      · decide
      · decide
    refine ⟨_, _, rounded, ?_⟩
    norm_num [absolute, greatestDigits]

/-! ## Products -/

section Product

variable {digits power : Nat} (writable : IsWritable digits power)

include writable

theorem digits_lt_overflow : (digits : ℚ) < overflow :=
  lt_overflow_of_le writable.small (by decide)

theorem mul_pow_le_overflowNumber : digits * 10 ^ power ≤ overflowNumber := by
  have inRange := writable.inRange
  rw [overflow_eq, zpow_natCast] at inRange
  exact_mod_cast inRange

theorem power_le_greatestPower : power ≤ greatestPower := by
  by_contra exceeds
  have least : 10 ^ (greatestPower + 1) ≤ digits * 10 ^ power :=
    le_trans (Nat.pow_le_pow_right (by decide) (not_le.mp exceeds))
      (Nat.le_mul_of_pos_left _ writable.positive)
  have most := le_trans least (mul_pow_le_overflowNumber writable)
  exact absurd (lt_of_lt_of_le overflowNumber_bounds.2 most) (lt_irrefl _)

/-- Apart from the last grid, what is written keeps a distance from the
overflow bound that two roundings do not take. -/
theorem mul_pow_growth_lt (notLast : power ≠ 292) :
    digits * 10 ^ power * (2 ^ 53 + 1) ^ 2 < overflowNumber * 2 ^ 106 := by
  rcases Nat.lt_or_gt_of_ne notLast with before | behind
  · have small : digits * 10 ^ power ≤ 10 ^ 17 * 10 ^ 291 := by
      apply Nat.mul_le_mul writable.small
      gcongr
      · decide
      · exact Nat.le_of_lt_succ before
    exact lt_of_le_of_lt (Nat.mul_le_mul_right _ small) (by decide +kernel)
  · have gap : ∀ more < 16,
        overflowNumber / 10 ^ (293 + more) * 10 ^ (293 + more) *
          (2 ^ 53 + 1) ^ 2 < overflowNumber * 2 ^ 106 := by
      decide +kernel
    have most := power_le_greatestPower writable
    obtain ⟨more, rfl⟩ := Nat.exists_eq_add_of_le (Nat.succ_le_of_lt behind)
    have few : digits ≤ overflowNumber / 10 ^ (293 + more) :=
      (Nat.le_div_iff_mul_le (by positivity)).mpr
        (mul_pow_le_overflowNumber writable)
    have inReach : more < 16 := by
      unfold greatestPower at most
      omega
    refine lt_of_le_of_lt (Nat.mul_le_mul_right _ ?_) (gap more inReach)
    exact Nat.mul_le_mul_right _ few

/-- The rounded digits times the rounded power of ten stay below the overflow
bound. -/
theorem exists_ofNat_lt_overflow :
    ∃ significand exponent,
      Binary64.ofNat digits = .finite false significand exponent ∧
        absolute significand exponent * (10 ^ power * growth) < overflow := by
  have rest : (0 : ℚ) ≤ 10 ^ power * growth :=
    mul_nonneg (by positivity) growth_pos.le
  by_cases isLast : power = 292
  · have most := writable.last (by rw [isLast]; rfl)
    obtain ⟨significand, exponent, finite, bound⟩ :=
      ofNat_le_greatestDigits writable.positive most
    refine ⟨significand, exponent, finite, ?_⟩
    have gap : (greatestDigits - 1) * 10 ^ power * (2 ^ 53 + 1) <
        overflowNumber * 2 ^ 53 := by
      rw [isLast]
      decide +kernel
    have gap : ((greatestDigits - 1 : Nat) : ℚ) * 10 ^ power * (2 ^ 53 + 1) <
        overflowNumber * 2 ^ 53 := by
      exact_mod_cast gap
    calc
      absolute significand exponent * (10 ^ power * growth) ≤
          (greatestDigits - 1 : Nat) * (10 ^ power * growth) :=
        mul_le_mul_of_nonneg_right bound rest
      _ < overflow := by
        rw [overflow_eq, growth]
        linarith
  · obtain ⟨significand, exponent, finite, bound⟩ :=
      ofNat_le_growth writable.positive (digits_lt_overflow writable)
    refine ⟨significand, exponent, finite, ?_⟩
    have gap := mul_pow_growth_lt writable isLast
    have gap : (digits : ℚ) * 10 ^ power * (2 ^ 53 + 1) ^ 2 <
        overflowNumber * 2 ^ 106 := by
      exact_mod_cast gap
    calc
      absolute significand exponent * (10 ^ power * growth) ≤
          digits * growth * (10 ^ power * growth) :=
        mul_le_mul_of_nonneg_right bound rest
      _ < overflow := by
        rw [overflow_eq, growth]
        linarith

end Product

theorem ofNat_pow_le_growth {power : Nat} (most : power ≤ greatestPower) :
    ∃ factor shift,
      Binary64.ofNat (Nat.pow 10 power) = .finite false factor shift ∧
        absolute factor shift ≤ 10 ^ power * growth := by
  have inRange : ((10 ^ power : Nat) : ℚ) < overflow :=
    lt_overflow_of_le (le_refl _) most
  have rounded := ofNat_le_growth (Nat.pow_pos (by decide)) inRange
  rw [Nat.cast_pow, Nat.cast_ofNat] at rounded
  exact rounded

/-! ## Reading -/

theorem isSome_scaled?_of_neg (significand : Nat) {power : Int}
    (isNegative : power < 0) : (scaled? significand power).isSome = true := by
  rw [scaled?, if_pos isNegative]
  rfl

/-- Digits that are written for a finite number are read as a number, whatever
the power of ten. -/
theorem isSome_scaled? {digits : Nat} {power : Int}
    (writable : IsWritable digits power) :
    (scaled? digits power).isSome = true := by
  by_cases isNegative : power < 0
  · exact isSome_scaled?_of_neg digits isNegative
  · obtain ⟨power, rfl⟩ := Int.eq_ofNat_of_zero_le (not_lt.mp isNegative)
    have most := power_le_greatestPower writable
    obtain ⟨significand, exponent, finite, bound⟩ :=
      exists_ofNat_lt_overflow writable
    obtain ⟨factor, shift, ten, factorBound⟩ := ofNat_pow_le_growth most
    have product :
        absolute significand exponent * absolute factor shift < overflow := by
      refine lt_of_le_of_lt (mul_le_mul_of_nonneg_left factorBound ?_) bound
      unfold absolute
      positivity
    obtain ⟨carried, shifted, isFinite⟩ :=
      timesPowerOfTen_of_lt_overflow ten false product
    rw [scaled?, if_neg isNegative, if_neg writable.positive.ne', Int.toNat_natCast,
      if_neg (not_lt.mpr most), finite, isFinite]
    rfl

end ComponentDocs.Json.Literal
