import Mathlib.Algebra.Order.Field.Power
import Mathlib.Algebra.Order.Field.Rat
import Mathlib.Tactic.Linarith
import Mathlib.Tactic.NormNum
import Mathlib.Tactic.Positivity
import Mathlib.Tactic.FieldSimp
import Mathlib.Tactic.Ring
import ComponentDocs.Number.Binary64

/-!
How far rounding moves a quotient: by at most half a unit of the last place,
and to infinity only from the middle between the greatest finite number and
the next power of two on.
-/

namespace ComponentDocs.Binary64

/-! ## Powers -/

theorem zpow_eq_div {base : ℚ} (nonzero : base ≠ 0) (exponent : Int) :
    base ^ exponent = base ^ exponent.toNat / base ^ (-exponent).toNat := by
  have parts : exponent = (exponent.toNat : Int) - ((-exponent).toNat : Int) :=
    (Int.toNat_sub_toNat_neg exponent).symm
  calc
    base ^ exponent =
        base ^ ((exponent.toNat : Int) - ((-exponent).toNat : Int)) := by
      rw [← parts]
    _ = base ^ exponent.toNat / base ^ (-exponent).toNat := by
      rw [zpow_sub₀ nonzero, zpow_natCast, zpow_natCast]

theorem leadingBit_eq : (leadingBit : ℚ) = 2 ^ (52 : Int) := by
  norm_num [leadingBit, precision]

/-- The ratio of a scaled quotient is the quotient over the power of two. -/
theorem scale_ratio (exponent : Int) (numerator denominator : Nat) :
    ((scale exponent numerator denominator).1 : ℚ) /
        (scale exponent numerator denominator).2 =
      (numerator : ℚ) / denominator / 2 ^ exponent := by
  rw [zpow_eq_div two_ne_zero]
  simp only [scale, Nat.pow_eq, Nat.cast_mul, Nat.cast_pow, Nat.cast_ofNat]
  field_simp

theorem scale_snd_pos (exponent : Int) (numerator : Nat) {denominator : Nat}
    (positive : 0 < denominator) :
    0 < (scale exponent numerator denominator).2 :=
  Nat.mul_pos positive (Nat.pow_pos Nat.two_pos)

/-! ## Whole numbers -/

section Quotient

variable (numerator : Nat) {denominator : Nat} (positive : 0 < denominator)

include positive

theorem roundQuotient_bounds :
    2 * (denominator * roundQuotient numerator denominator) ≤
        2 * numerator + denominator ∧
      2 * numerator ≤
        2 * (denominator * roundQuotient numerator denominator) +
          denominator := by
  have whole := Nat.div_add_mod numerator denominator
  have small := Nat.mod_lt numerator positive
  unfold roundQuotient
  generalize numerator / denominator = quotient at whole ⊢
  generalize numerator % denominator = remainder at whole small ⊢
  have next : denominator * (quotient + 1) =
      denominator * quotient + denominator := Nat.mul_succ _ _
  dsimp only
  split_ifs with below above
  · omega
  · omega
  · rcases Nat.mod_two_eq_zero_or_one quotient with even | odd
    · rw [even, Nat.add_zero]
      omega
    · rw [odd]
      omega

theorem roundQuotient_le :
    (roundQuotient numerator denominator : ℚ) ≤
      numerator / denominator + 1 / 2 := by
  have bound := (roundQuotient_bounds numerator positive).1
  have bound : 2 * ((denominator : ℚ) * roundQuotient numerator denominator) ≤
      2 * numerator + denominator := by exact_mod_cast bound
  have positive : (0 : ℚ) < denominator := by exact_mod_cast positive
  rw [div_add_div _ _ positive.ne' two_ne_zero, le_div_iff₀ (by positivity)]
  linarith

theorem le_roundQuotient :
    (numerator : ℚ) / denominator ≤
      roundQuotient numerator denominator + 1 / 2 := by
  have bound := (roundQuotient_bounds numerator positive).2
  have bound : 2 * (numerator : ℚ) ≤
      2 * (denominator * roundQuotient numerator denominator) +
        denominator := by exact_mod_cast bound
  have positive : (0 : ℚ) < denominator := by exact_mod_cast positive
  rw [div_le_iff₀ positive]
  linarith

end Quotient

/-! ## The exponent -/

section Exponent

variable {numerator denominator : Nat} (nonzero : 0 < numerator)
  (positive : 0 < denominator)

include nonzero positive

/-- The logarithms of the parts of a quotient tell it up to a factor of
four. -/
theorem quotient_bounds :
    (2 : ℚ) ^ ((Nat.log2 numerator : Int) - Nat.log2 denominator - 1) ≤
        numerator / denominator ∧
      (numerator : ℚ) / denominator <
        2 ^ ((Nat.log2 numerator : Int) - Nat.log2 denominator + 1) := by
  have aboveTop : (2 : ℚ) ^ (Nat.log2 numerator : Int) ≤ numerator := by
    exact_mod_cast Nat.log2_self_le nonzero.ne'
  have belowTop : (numerator : ℚ) < 2 ^ ((Nat.log2 numerator : Int) + 1) := by
    exact_mod_cast Nat.lt_log2_self
  have aboveBottom : (2 : ℚ) ^ (Nat.log2 denominator : Int) ≤ denominator := by
    exact_mod_cast Nat.log2_self_le positive.ne'
  have belowBottom :
      (denominator : ℚ) < 2 ^ ((Nat.log2 denominator : Int) + 1) := by
    exact_mod_cast Nat.lt_log2_self
  have positive : (0 : ℚ) < denominator := by exact_mod_cast positive
  constructor
  · rw [le_div_iff₀ positive, sub_sub, zpow_sub₀ two_ne_zero,
      div_mul_eq_mul_div, div_le_iff₀ (by positivity)]
    exact mul_le_mul aboveTop belowBottom.le positive.le (by positivity)
  · rw [div_lt_iff₀ positive]
    calc
      (numerator : ℚ) < 2 ^ ((Nat.log2 numerator : Int) + 1) := belowTop
      _ = 2 ^ ((Nat.log2 numerator : Int) - Nat.log2 denominator + 1) *
          2 ^ (Nat.log2 denominator : Int) := by
        rw [← zpow_add₀ two_ne_zero]
        congr 1
        ring
      _ ≤ _ := mul_le_mul_of_nonneg_left aboveBottom (by positivity)

omit nonzero in
variable (numerator) in
theorem scale_div_lt_iff (exponent : Int) (bound : Nat) :
    (scale exponent numerator denominator).1 /
        (scale exponent numerator denominator).2 < bound ↔
      (numerator : ℚ) / denominator < bound * 2 ^ exponent := by
  have bottomPositive := scale_snd_pos exponent numerator positive
  have bottomCast :
      (0 : ℚ) < (scale exponent numerator denominator).2 := by
    exact_mod_cast bottomPositive
  rw [Nat.div_lt_iff_lt_mul bottomPositive, ← div_lt_iff₀ (by positivity),
    ← scale_ratio, div_lt_iff₀ bottomCast]
  exact_mod_cast Iff.rfl

/-- The lower of the two exponents that a quotient may get. -/
def lowExponent (numerator denominator : Nat) : Int :=
  max ((Nat.log2 numerator : Int) - Nat.log2 denominator - precision)
    leastExponent

omit nonzero in
theorem exponentOf_eq :
    exponentOf numerator denominator =
      if (numerator : ℚ) / denominator <
          2 ^ (lowExponent numerator denominator + 53) then
        lowExponent numerator denominator
      else lowExponent numerator denominator + 1 := by
  have test := scale_div_lt_iff numerator positive
    (lowExponent numerator denominator) (2 * leadingBit)
  have bound : ((2 * leadingBit : Nat) : ℚ) *
        2 ^ lowExponent numerator denominator =
      2 ^ (lowExponent numerator denominator + 53) := by
    rw [Nat.cast_mul, leadingBit_eq, Nat.cast_ofNat, zpow_add₀ two_ne_zero]
    ring
  rw [bound] at test
  exact if_congr test rfl rfl

/-- The exponent leaves room for the bits of a significand, and leaves none of
them out unless it is the least. -/
theorem exponentOf_bounds :
    leastExponent ≤ exponentOf numerator denominator ∧
      (numerator : ℚ) / denominator <
        2 ^ (exponentOf numerator denominator + 53) ∧
      (exponentOf numerator denominator = leastExponent ∨
        (2 : ℚ) ^ (exponentOf numerator denominator + 52) ≤
          numerator / denominator) := by
  obtain ⟨above, below⟩ := quotient_bounds nonzero positive
  have isPrecision : (precision : Int) = 53 := rfl
  have low : (Nat.log2 numerator : Int) - Nat.log2 denominator - precision ≤
      lowExponent numerator denominator := le_max_left _ _
  have least : leastExponent ≤ lowExponent numerator denominator :=
    le_max_right _ _
  have isLow : lowExponent numerator denominator = leastExponent ∨
      lowExponent numerator denominator =
        (Nat.log2 numerator : Int) - Nat.log2 denominator - precision :=
    (max_choice _ leastExponent).symm
  rw [exponentOf_eq positive]
  generalize lowExponent numerator denominator = exponent at low least isLow ⊢
  by_cases fits : (numerator : ℚ) / denominator < 2 ^ (exponent + 53)
  · rw [if_pos fits]
    refine ⟨least, fits, ?_⟩
    rcases isLow with isLeast | isGuess
    · exact .inl isLeast
    · refine .inr (le_trans ?_ above)
      exact zpow_le_zpow_right₀ one_le_two (by omega)
  · rw [if_neg fits]
    refine ⟨by omega, lt_of_lt_of_le below ?_, .inr ?_⟩
    · exact zpow_le_zpow_right₀ one_le_two (by omega)
    · rw [add_assoc]
      exact not_lt.mp fits

end Exponent

/-! ## Rounded quotients -/

/-- Whether the significand and the exponent of a finite number are in their
bounds; the significand has all its bits unless the exponent is the least. -/
def IsStandard : Binary64 → Prop
  | .finite _ significand exponent =>
      significand < 2 * leadingBit ∧ leastExponent ≤ exponent ∧
        exponent ≤ greatestExponent ∧
          (leadingBit ≤ significand ∨ exponent = leastExponent)
  | _ => True

/-- The middle between the greatest finite number and the next power of two,
from which on quotients are rounded to infinity. -/
def overflow : ℚ := (2 ^ (53 : Int) - 1 / 2) * 2 ^ greatestExponent

/-- The overflow bound as a whole number. -/
def overflowNumber : Nat := (4 * leadingBit - 1) * 2 ^ 970

theorem overflow_eq : overflow = overflowNumber := by
  have unit : (2 : ℚ) ^ greatestExponent = 2 * (2 ^ 970 : Nat) := by
    rw [Nat.cast_pow, Nat.cast_ofNat, ← zpow_natCast,
      ← zpow_one_add₀ two_ne_zero]
    rfl
  have bits : ((4 * leadingBit - 1 : Nat) : ℚ) =
      2 * (2 ^ (53 : Int) - 1 / 2) := by
    norm_num [leadingBit, precision]
  rw [overflow, overflowNumber, Nat.cast_mul, bits, unit]
  ring

/-- The number that a finite number stands for, without its sign. -/
def absolute (significand : Nat) (exponent : Int) : ℚ :=
  significand * 2 ^ exponent

theorem ofSignificand_cases (negative : Bool) {significand : Nat}
    {exponent : Int} (fits : significand ≤ 2 * leadingBit) :
    (ofSignificand negative significand exponent = .infinite negative ∧
        (greatestExponent < exponent ∨
          (greatestExponent = exponent ∧ significand = 2 * leadingBit))) ∨
      ∃ carried shifted,
        ofSignificand negative significand exponent =
            .finite negative carried shifted ∧
          absolute carried shifted = absolute significand exponent ∧
          carried < 2 * leadingBit ∧ exponent ≤ shifted ∧
          shifted ≤ greatestExponent ∧
          (leadingBit ≤ carried ∨
            (carried = significand ∧ shifted = exponent)) := by
  unfold ofSignificand
  by_cases isCarry : significand = 2 * leadingBit
  · rw [if_pos isCarry]
    dsimp only
    by_cases tooGreat : greatestExponent < exponent + 1
    · rw [if_pos tooGreat]
      refine .inl ⟨rfl, ?_⟩
      rcases Int.lt_or_le greatestExponent exponent with greater | equal
      · exact .inl greater
      · exact .inr ⟨Int.le_antisymm (Int.lt_add_one_iff.mp tooGreat) equal,
          isCarry⟩
    · rw [if_neg tooGreat]
      refine .inr ⟨leadingBit, exponent + 1, rfl, ?_, by decide,
        Int.le_add_one (Int.le_refl _), not_lt.mp tooGreat,
        .inl (Nat.le_refl _)⟩
      rw [absolute, absolute, isCarry, zpow_add₀ two_ne_zero, Nat.cast_mul,
        Nat.cast_ofNat, zpow_one]
      ring
  · rw [if_neg isCarry]
    dsimp only
    by_cases tooGreat : greatestExponent < exponent
    · rw [if_pos tooGreat]
      exact .inl ⟨rfl, .inl tooGreat⟩
    · rw [if_neg tooGreat]
      exact .inr ⟨significand, exponent, rfl, rfl,
        Nat.lt_of_le_of_ne fits isCarry, Int.le_refl _, not_lt.mp tooGreat,
        .inr ⟨rfl, rfl⟩⟩

theorem two_mul_leadingBit : ((2 * leadingBit : Nat) : ℚ) = 2 ^ (53 : Int) := by
  norm_num [leadingBit, precision]

section Significand

variable {quotient : ℚ} {significand : Nat} {exponent : Int}
  (below : absolute significand exponent ≤ quotient + 2 ^ exponent / 2)

include below

theorem significand_le (room : quotient < 2 ^ (exponent + 53)) :
    significand ≤ 2 * leadingBit := by
  have unitPositive : (0 : ℚ) < 2 ^ exponent := by positivity
  rw [add_comm, zpow_add₀ two_ne_zero, ← two_mul_leadingBit] at room
  unfold absolute at below
  by_contra exceeds
  have exceeds : ((2 * leadingBit : Nat) : ℚ) + 1 ≤ significand := by
    exact_mod_cast not_le.mp exceeds
  have more := mul_le_mul_of_nonneg_right exceeds unitPositive.le
  linarith

/-- A significand that is carried beyond the greatest exponent belongs to a
quotient from the overflow bound on. -/
theorem overflow_le
    (full : exponent = leastExponent ∨ (2 : ℚ) ^ (exponent + 52) ≤ quotient)
    (tooGreat : greatestExponent < exponent ∨
      (greatestExponent = exponent ∧ significand = 2 * leadingBit)) :
    overflow ≤ quotient := by
  rcases tooGreat with greater | ⟨rfl, isCarry⟩
  · have notLeast : exponent ≠ leastExponent := by
      intro isLeast
      rw [isLeast] at greater
      exact absurd greater (by decide)
    refine le_trans ?_ (full.resolve_left notLeast)
    calc
      overflow ≤ 2 ^ (53 : Int) * 2 ^ greatestExponent := by
        unfold overflow
        gcongr
        norm_num
      _ = 2 ^ (53 + greatestExponent) := (zpow_add₀ two_ne_zero _ _).symm
      _ ≤ 2 ^ (exponent + 52) :=
        zpow_le_zpow_right₀ one_le_two (by omega)
  · rw [absolute, isCarry, two_mul_leadingBit] at below
    unfold overflow
    linarith

end Significand

theorem leadingBit_le {quotient : ℚ} {significand : Nat} {exponent : Int}
    (above : quotient ≤ absolute significand exponent + 2 ^ exponent / 2)
    (full : (2 : ℚ) ^ (exponent + 52) ≤ quotient) :
    leadingBit ≤ significand := by
  have unitPositive : (0 : ℚ) < 2 ^ exponent := by positivity
  rw [add_comm, zpow_add₀ two_ne_zero, ← leadingBit_eq] at full
  unfold absolute at above
  by_contra less
  have less : (significand : ℚ) + 1 ≤ leadingBit := by
    exact_mod_cast not_le.mp less
  have more := mul_le_mul_of_nonneg_right less unitPositive.le
  linarith

section Rounded

variable {numerator denominator : Nat} (nonzero : 0 < numerator)
  (positive : 0 < denominator)

include positive in
variable (numerator) in
/-- At any exponent the significand next to a quotient is off by at most half
a unit. -/
theorem absolute_roundQuotient_bounds (exponent : Int) :
    absolute (roundQuotient (scale exponent numerator denominator).1
        (scale exponent numerator denominator).2) exponent ≤
          (numerator : ℚ) / denominator + 2 ^ exponent / 2 ∧
      (numerator : ℚ) / denominator ≤
        absolute (roundQuotient (scale exponent numerator denominator).1
          (scale exponent numerator denominator).2) exponent +
            2 ^ exponent / 2 := by
  have unitPositive : (0 : ℚ) < 2 ^ exponent := by positivity
  have bottomPositive := scale_snd_pos exponent numerator positive
  have below := roundQuotient_le
    (scale exponent numerator denominator).1 bottomPositive
  have above := le_roundQuotient
    (scale exponent numerator denominator).1 bottomPositive
  rw [scale_ratio] at below above
  rw [← sub_le_iff_le_add, le_div_iff₀ unitPositive] at below
  rw [div_le_iff₀ unitPositive] at above
  unfold absolute
  constructor
  · linarith
  · linarith

include nonzero positive

/-- A quotient is rounded to infinity from the overflow bound on only, and to a
finite number that is at most half a unit of its last place greater. -/
theorem ofQuotient_cases (negative : Bool) :
    (ofQuotient negative numerator denominator = .infinite negative ∧
        overflow ≤ (numerator : ℚ) / denominator) ∨
      ∃ significand exponent,
        ofQuotient negative numerator denominator =
            .finite negative significand exponent ∧
          IsStandard (.finite negative significand exponent) ∧
          absolute significand exponent ≤ (numerator : ℚ) / denominator +
            2 ^ exponentOf numerator denominator / 2 := by
  obtain ⟨least, room, full⟩ := exponentOf_bounds nonzero positive
  obtain ⟨below, above⟩ := absolute_roundQuotient_bounds numerator positive
    (exponentOf numerator denominator)
  have rounded : ofQuotient negative numerator denominator =
      ofSignificand negative
        (roundQuotient
          (scale (exponentOf numerator denominator) numerator denominator).1
          (scale (exponentOf numerator denominator) numerator denominator).2)
        (exponentOf numerator denominator) := by
    rw [ofQuotient, if_neg nonzero.ne']
  rw [rounded]
  rcases ofSignificand_cases negative (significand_le below room) with
    ⟨infinite, tooGreat⟩ |
      ⟨carried, shifted, finite, same, small, grown, inRange, isFull⟩
  · exact .inl ⟨infinite, overflow_le below full tooGreat⟩
  · refine .inr ⟨carried, shifted, finite,
      ⟨small, le_trans least grown, inRange, ?_⟩, ?_⟩
    · rcases isFull with isFull | ⟨rfl, rfl⟩
      · exact .inl isFull
      · rcases full with isLeast | full
        · exact .inr isLeast
        · exact .inl (leadingBit_le above full)
    · rw [same]
      exact below

theorem isStandard_ofQuotient (negative : Bool) :
    (ofQuotient negative numerator denominator).IsStandard := by
  rcases ofQuotient_cases nonzero positive negative with
    ⟨infinite, -⟩ | ⟨significand, exponent, finite, standard, -⟩
  · rw [infinite]
    exact trivial
  · rw [finite]
    exact standard

/-- Below the overflow bound rounding gives a finite number. -/
theorem ofQuotient_of_lt_overflow (negative : Bool)
    (inRange : (numerator : ℚ) / denominator < overflow) :
    ∃ significand exponent,
      ofQuotient negative numerator denominator =
          .finite negative significand exponent ∧
        absolute significand exponent ≤ (numerator : ℚ) / denominator +
          2 ^ exponentOf numerator denominator / 2 := by
  rcases ofQuotient_cases nonzero positive negative with
    ⟨-, tooGreat⟩ | ⟨significand, exponent, finite, -, bound⟩
  · exact absurd inRange (not_lt.mpr tooGreat)
  · exact ⟨significand, exponent, finite, bound⟩

end Rounded

theorem isStandard_zero (negative : Bool) : (zero negative).IsStandard :=
  ⟨by decide, by decide, by decide, .inr rfl⟩

theorem isStandard_ofDecimal (negative : Bool) (digits : Nat)
    (exponent : Int) : (ofDecimal negative digits exponent).IsStandard := by
  unfold ofDecimal
  dsimp only
  split_ifs with isZero tooGreat
  · exact isStandard_zero negative
  · exact trivial
  · have nonzero : 0 < digits := by
      apply Nat.pos_of_ne_zero
      rintro rfl
      exact isZero rfl
    exact isStandard_ofQuotient
      (Nat.mul_pos nonzero (Nat.pow_pos (by decide)))
      (Nat.pow_pos (by decide)) negative

/-! ## Whole numbers and products -/

/-- The unit of the last place of a rounded whole number is at least as small
as the number over the weight of the first bit. -/
theorem ofNat_of_lt_overflow {value : Nat} (nonzero : 0 < value)
    (inRange : (value : ℚ) < overflow) :
    ∃ significand exponent, ∃ unit : Int,
      ofNat value = .finite false significand exponent ∧
        absolute significand exponent ≤ value + 2 ^ unit / 2 ∧
        (2 : ℚ) ^ (unit + 52) ≤ value := by
  have ratio : (value : ℚ) / (1 : Nat) = value := by
    rw [Nat.cast_one, div_one]
  obtain ⟨-, -, full⟩ := exponentOf_bounds nonzero Nat.one_pos
  obtain ⟨significand, exponent, finite, bound⟩ :=
    ofQuotient_of_lt_overflow nonzero Nat.one_pos false (by rwa [ratio])
  rw [ratio] at full bound
  refine ⟨significand, exponent, exponentOf value 1, finite, bound, ?_⟩
  rcases full with isLeast | full
  · have one_le : (1 : ℚ) ≤ value := by exact_mod_cast nonzero
    refine le_trans ?_ one_le
    rw [isLeast]
    exact zpow_le_one_of_nonpos₀ one_le_two (by decide)
  · exact full

theorem absolute_mul (first second : Nat) (exponent shift : Int) :
    absolute (first * second) (exponent + shift) =
      absolute first exponent * absolute second shift := by
  rw [absolute, absolute, absolute, zpow_add₀ two_ne_zero, Nat.cast_mul]
  ring

theorem magnitude_ratio (significand : Nat) (exponent : Int) :
    ((magnitude significand exponent).1 : ℚ) /
        (magnitude significand exponent).2 =
      absolute significand exponent := by
  rw [magnitude, scale_ratio, zpow_neg, Nat.cast_one, div_one, div_inv_eq_mul,
    absolute]

/-- A product below the overflow bound is finite. -/
theorem timesPowerOfTen_of_lt_overflow {power factor : Nat} {shift : Int}
    (ten : ofNat (Nat.pow 10 power) = .finite false factor shift)
    {significand : Nat} {exponent : Int} (negative : Bool)
    (inRange : absolute significand exponent * absolute factor shift <
      overflow) :
    ∃ carried shifted,
      timesPowerOfTen power (.finite negative significand exponent) =
        .finite negative carried shifted := by
  have product : timesPowerOfTen power (.finite negative significand exponent) =
      ofQuotient negative
        (magnitude (significand * factor) (exponent + shift)).1
        (magnitude (significand * factor) (exponent + shift)).2 := by
    rw [timesPowerOfTen, ten]
  rw [product]
  rw [← absolute_mul, ← magnitude_ratio] at inRange
  rcases Nat.eq_zero_or_pos
    (magnitude (significand * factor) (exponent + shift)).1
    with isZero | nonzero
  · rw [ofQuotient, if_pos isZero]
    exact ⟨0, leastExponent, rfl⟩
  · have bottomPositive :
        0 < (magnitude (significand * factor) (exponent + shift)).2 :=
      scale_snd_pos _ _ Nat.one_pos
    obtain ⟨carried, shifted, finite, -⟩ :=
      ofQuotient_of_lt_overflow nonzero bottomPositive negative inRange
    exact ⟨carried, shifted, finite⟩

end ComponentDocs.Binary64
