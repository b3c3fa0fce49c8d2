import ComponentDocs.Number.Decimal
import ComponentDocs.Proofs.Number.Rounding
import ComponentDocs.Proofs.Text.Digits

/-!
The decimal digits that are written for a finite number: there are at most
seventeen, and the number they stand for is not greater than what is rounded to
a finite number.
-/

namespace ComponentDocs.Binary64

/-! ## Numbers that are read -/

theorem isStandard_unsigned? {negative : Bool} {text : Text}
    {number : Binary64} (read : unsigned? negative text = some number) :
    number.IsStandard := by
  simp only [unsigned?, Option.ite_none_left_eq_some, Option.bind_eq_bind,
    Option.bind_eq_some_iff, Option.some.injEq] at read
  obtain ⟨-, exponent, -, rfl⟩ := read
  exact isStandard_ofDecimal _ _ _

/-- Every number that a text is read as is standard. -/
theorem isStandard_ofText? {text : Text} {number : Binary64}
    (read : ofText? text = some number) : number.IsStandard := by
  unfold ofText? at read
  dsimp only at read
  split_ifs at read
  · rw [← Option.some.inj read]
    exact trivial
  · rw [← Option.some.inj read]
    exact trivial
  · exact isStandard_unsigned? read

/-! ## The neighbourhood -/

section Neighbourhood

variable (significand : Nat) (exponent : Int)

/-- The reals that round to a finite number reach half a unit above it. -/
def upperBound : ℚ :=
  absolute significand exponent + 2 ^ exponent / 2

theorem denominator_pos : 0 < (neighbourhood significand exponent).2.2.2 :=
  Nat.pow_pos Nat.two_pos

theorem neighbourhood_value :
    ((neighbourhood significand exponent).2.1 : ℚ) /
        (neighbourhood significand exponent).2.2.2 =
      absolute significand exponent := by
  have unit := zpow_eq_div (two_ne_zero (α := ℚ)) (exponent - 2)
  rw [zpow_sub₀ two_ne_zero] at unit
  simp only [neighbourhood, Nat.pow_eq, Nat.cast_mul, Nat.cast_pow,
    Nat.cast_ofNat, absolute]
  rw [mul_div_assoc, ← unit]
  ring

theorem neighbourhood_high :
    ((neighbourhood significand exponent).2.2.1 : ℚ) /
        (neighbourhood significand exponent).2.2.2 =
      upperBound significand exponent := by
  have unit := zpow_eq_div (two_ne_zero (α := ℚ)) (exponent - 2)
  rw [zpow_sub₀ two_ne_zero] at unit
  simp only [neighbourhood, Nat.pow_eq, Nat.cast_mul, Nat.cast_add,
    Nat.cast_pow, Nat.cast_ofNat, upperBound, absolute]
  rw [mul_div_assoc, ← unit]
  ring

theorem neighbourhood_low_pos {significand : Nat} (nonzero : 0 < significand) :
    0 < (neighbourhood significand exponent).1 := by
  apply Nat.mul_pos
  · split_ifs
    · omega
    · omega
  · exact Nat.pow_pos Nat.two_pos

end Neighbourhood

theorem liesWithin_bounds {even : Bool}
    {low high denominator top bottom : Nat}
    (within : liesWithin even low high denominator top bottom = true) :
    low * bottom ≤ top * denominator ∧ top * denominator ≤ high * bottom := by
  unfold liesWithin at within
  cases even with
  | true => simpa using within
  | false =>
      obtain ⟨above, below⟩ : low * bottom < top * denominator ∧
          top * denominator < high * bottom := by simpa using within
      exact ⟨above.le, below.le⟩

theorem roundQuotient_le_succ (numerator denominator : Nat) :
    roundQuotient numerator denominator ≤ numerator / denominator + 1 := by
  unfold roundQuotient
  dsimp only
  split_ifs
  · omega
  · omega
  · omega

/-! ## One grid -/

section Grid

variable {significand factor : Nat} {exponent power : Int}

/-- A factor that is found is within the neighbourhood, and is at most one
greater than the whole part of the quotient. -/
theorem nearestOnGrid?_cases
    (found : nearestOnGrid? significand exponent power = some factor) :
    factor ≤ (neighbourhood significand exponent).2.1 *
          10 ^ (-power).toNat /
        ((neighbourhood significand exponent).2.2.2 *
          10 ^ power.toNat) + 1 ∧
      (neighbourhood significand exponent).1 * 10 ^ (-power).toNat ≤
        factor * 10 ^ power.toNat *
          (neighbourhood significand exponent).2.2.2 ∧
      factor * 10 ^ power.toNat *
          (neighbourhood significand exponent).2.2.2 ≤
        (neighbourhood significand exponent).2.2.1 *
          10 ^ (-power).toNat := by
  unfold nearestOnGrid? at found
  dsimp only at found
  split_ifs at found with nearest floor next
  · obtain rfl := Option.some.inj found
    exact ⟨roundQuotient_le_succ _ _, liesWithin_bounds nearest⟩
  · obtain rfl := Option.some.inj found
    exact ⟨Nat.le_succ _, liesWithin_bounds floor⟩
  · obtain rfl := Option.some.inj found
    exact ⟨Nat.le_refl _, liesWithin_bounds next⟩

variable (nonzero : 0 < significand)
  (found : nearestOnGrid? significand exponent power = some factor)

include found

theorem nearestOnGrid?_le_upperBound :
    (factor : ℚ) * 10 ^ power ≤ upperBound significand exponent := by
  obtain ⟨-, -, high⟩ := nearestOnGrid?_cases found
  have high : (factor : ℚ) * 10 ^ power.toNat *
        (neighbourhood significand exponent).2.2.2 ≤
      (neighbourhood significand exponent).2.2.1 * 10 ^ (-power).toNat := by
    exact_mod_cast high
  have positive :
      (0 : ℚ) < (neighbourhood significand exponent).2.2.2 := by
    exact_mod_cast denominator_pos significand exponent
  rw [← neighbourhood_high, zpow_eq_div (by norm_num) power, ← mul_div_assoc,
    div_le_div_iff₀ (by positivity) positive]
  exact high

/-- A factor is bounded by each whole number above the number that it stands
for. -/
theorem nearestOnGrid?_le {bound : Nat}
    (below : absolute significand exponent < bound * 10 ^ power) :
    factor ≤ bound := by
  obtain ⟨next, -, -⟩ := nearestOnGrid?_cases found
  refine le_trans next (Nat.succ_le_of_lt ?_)
  have denominatorPositive := denominator_pos significand exponent
  have positive :
      (0 : ℚ) < (neighbourhood significand exponent).2.2.2 := by
    exact_mod_cast denominatorPositive
  rw [← neighbourhood_value, zpow_eq_div (by norm_num) power, ← mul_div_assoc,
    div_lt_div_iff₀ positive (by positivity)] at below
  have below : (neighbourhood significand exponent).2.1 *
        10 ^ (-power).toNat <
      bound * 10 ^ power.toNat * (neighbourhood significand exponent).2.2.2 := by
    exact_mod_cast below
  rw [Nat.div_lt_iff_lt_mul (by positivity)]
  calc
    _ < bound * 10 ^ power.toNat *
        (neighbourhood significand exponent).2.2.2 := below
    _ = bound * ((neighbourhood significand exponent).2.2.2 *
        10 ^ power.toNat) := by
      ring

include nonzero in
theorem nearestOnGrid?_pos : 0 < factor := by
  obtain ⟨-, low, -⟩ := nearestOnGrid?_cases found
  have positive := Nat.mul_pos (neighbourhood_low_pos exponent nonzero)
    (Nat.pow_pos (n := (-power).toNat) (show 0 < 10 by decide))
  apply Nat.pos_of_ne_zero
  rintro rfl
  rw [Nat.zero_mul, Nat.zero_mul] at low
  exact absurd positive (Nat.not_lt.mpr low)

end Grid

/-! ## The place of the first digit -/

/-- A number is less than the power of ten that its first digit is below. -/
theorem absolute_lt_decimalPlace {significand : Nat}
    (nonzero : 0 < significand) (exponent : Int) :
    absolute significand exponent <
      10 ^ decimalPlace significand exponent := by
  have topPositive : 0 < (magnitude significand exponent).1 :=
    Nat.mul_pos nonzero (Nat.pow_pos Nat.two_pos)
  have bottomPositive : 0 < (magnitude significand exponent).2 :=
    scale_snd_pos _ _ Nat.one_pos
  rw [← magnitude_ratio, decimalPlace]
  rcases scaled : magnitude significand exponent with ⟨top, bottom⟩
  rw [scaled] at topPositive bottomPositive
  dsimp only at topPositive bottomPositive ⊢
  have positive : (0 : ℚ) < bottom := by exact_mod_cast bottomPositive
  by_cases whole : bottom ≤ top
  · have short := Text.lt_pow_length_ofNat (top / bottom)
    rw [Nat.div_lt_iff_lt_mul bottomPositive] at short
    rw [if_pos whole, div_lt_iff₀ positive, zpow_natCast]
    exact_mod_cast short
  · have quotientPositive : 0 < (bottom - 1) / top :=
      Nat.div_pos (by omega) topPositive
    have long := Text.pow_length_ofNat_le quotientPositive
    have length := Text.length_ofNat_pos ((bottom - 1) / top)
    rw [Nat.le_div_iff_mul_le topPositive] at long
    have behind : 1 - ((Text.ofNat ((bottom - 1) / top)).length : Int) =
        -(((Text.ofNat ((bottom - 1) / top)).length - 1 : Nat) : Int) := by
      omega
    have less : 10 ^ ((Text.ofNat ((bottom - 1) / top)).length - 1) * top <
        bottom := by omega
    rw [if_neg whole, behind, zpow_neg, zpow_natCast, div_lt_iff₀ positive,
      lt_inv_mul_iff₀ (by positivity)]
    exact_mod_cast less

/-! ## The digits -/

theorem shortestFrom_cases (significand : Nat) (exponent place : Int)
    (count remaining : Nat) :
    shortestFrom significand exponent place count remaining = (0, 0) ∨
      ∃ more factor, count ≤ more ∧ more < count + remaining ∧
        nearestOnGrid? significand exponent (place - more) = some factor ∧
          shortestFrom significand exponent place count remaining =
            (factor, place - more) := by
  induction remaining generalizing count with
  | zero =>
      exact .inl rfl
  | succ remaining inductionHypothesis =>
      rw [shortestFrom]
      cases found : nearestOnGrid? significand exponent (place - count) with
      | some factor =>
          exact .inr ⟨count, factor, Nat.le_refl _, by omega, found, rfl⟩
      | none =>
          rcases inductionHypothesis (count + 1) with
            nothing | ⟨more, factor, least, most, isFactor, equation⟩
          · exact .inl nothing
          · exact .inr
              ⟨more, factor, by omega, by omega, isFactor, equation⟩

/-- Zeros that are dropped are counted in the power. -/
theorem dropZeros_cases (remaining factor : Nat) (power : Int) :
    ∃ zeros : Nat,
      factor = (dropZeros remaining (factor, power)).1 * 10 ^ zeros ∧
        (dropZeros remaining (factor, power)).2 = power + zeros := by
  induction remaining generalizing factor power with
  | zero =>
      exact ⟨0, by simp [dropZeros], by simp [dropZeros]⟩
  | succ remaining inductionHypothesis =>
      rw [dropZeros]
      split_ifs with hasZero
      · obtain ⟨zeros, factors, powers⟩ :=
          inductionHypothesis (factor / 10) (power + 1)
        have divides : factor % 10 = 0 := by
          have both : factor ≠ 0 ∧ factor % 10 = 0 := by simpa using hasZero
          exact both.2
        refine ⟨zeros + 1, ?_, ?_⟩
        · calc
            factor = factor / 10 * 10 := by omega
            _ = (dropZeros remaining (factor / 10, power + 1)).1 *
                10 ^ zeros * 10 := by
              rw [← factors]
            _ = _ := by
              rw [Nat.mul_assoc, ← Nat.pow_succ]
        · rw [powers]
          push_cast
          ring
      · exact ⟨0, by simp, by simp⟩

/-! ## The greatest number -/

/-- The greatest finite number is written with these digits, which count
multiples of `10 ^ greatestGrid`. -/
def greatestDigits : Nat := 17976931348623157

def greatestGrid : Int := 292

section Standard

variable {negative : Bool} {significand : Nat} {exponent : Int}
  (standard : IsStandard (.finite negative significand exponent))

include standard

theorem absolute_le_of_not_greatest
    (notGreatest :
      ¬ (significand = 2 * leadingBit - 1 ∧ exponent = greatestExponent)) :
    absolute significand exponent ≤
      (2 * leadingBit - 2 : Nat) * 2 ^ greatestExponent := by
  obtain ⟨small, -, inRange, -⟩ := standard
  unfold absolute
  rcases inRange.eq_or_lt with rfl | less
  · have fewer : significand ≤ 2 * leadingBit - 2 := by omega
    gcongr
  · have smaller : (significand : ℚ) ≤ (2 * leadingBit : Nat) := by
      exact_mod_cast small.le
    have lower : (2 : ℚ) ^ exponent ≤ 2 ^ (greatestExponent - 1) :=
      zpow_le_zpow_right₀ one_le_two (Int.le_sub_one_of_lt less)
    calc
      (significand : ℚ) * 2 ^ exponent ≤
          (2 * leadingBit : Nat) * 2 ^ (greatestExponent - 1) :=
        mul_le_mul smaller lower (zpow_pos two_pos _).le (Nat.cast_nonneg _)
      _ = (leadingBit : ℚ) * 2 ^ greatestExponent := by
        rw [zpow_sub₀ two_ne_zero, Nat.cast_mul, Nat.cast_ofNat, zpow_one]
        ring
      _ ≤ (2 * leadingBit - 2 : Nat) * 2 ^ greatestExponent := by
        gcongr
        decide

/-- No number but the greatest reaches the digits of the greatest one. -/
theorem absolute_lt_greatestDigits
    (notGreatest :
      ¬ (significand = 2 * leadingBit - 1 ∧ exponent = greatestExponent)) :
    absolute significand exponent <
      (greatestDigits - 1 : Nat) * 10 ^ greatestGrid := by
  have gap : (2 * leadingBit - 2) * 2 ^ 971 <
      (greatestDigits - 1) * 10 ^ 292 := by
    decide +kernel
  calc
    absolute significand exponent ≤
        (2 * leadingBit - 2 : Nat) * 2 ^ greatestExponent :=
      absolute_le_of_not_greatest standard notGreatest
    _ = ((2 * leadingBit - 2) * 2 ^ 971 : Nat) := by
      rw [Nat.cast_mul, Nat.cast_pow]
      rfl
    _ < ((greatestDigits - 1) * 10 ^ 292 : Nat) := by
      exact_mod_cast gap
    _ = (greatestDigits - 1 : Nat) * 10 ^ greatestGrid := by
      rw [Nat.cast_mul, Nat.cast_pow]
      rfl

theorem upperBound_le_overflow :
    upperBound significand exponent ≤ overflow := by
  obtain ⟨small, -, inRange, -⟩ := standard
  have small : (significand : ℚ) + 1 ≤ 2 ^ (53 : Int) := by
    rw [← two_mul_leadingBit]
    exact_mod_cast small
  calc
    upperBound significand exponent = (significand + 1 / 2) * 2 ^ exponent := by
      rw [upperBound, absolute]
      ring
    _ ≤ (2 ^ (53 : Int) - 1 / 2) * 2 ^ greatestExponent := by
      gcongr
      · linarith
      · exact one_le_two

end Standard

theorem nearestOnGrid?_greatest :
    nearestOnGrid? (2 * leadingBit - 1) greatestExponent greatestGrid =
      some greatestDigits := by
  decide +kernel

/-! ## Digits that are written -/

/-- What holds of the digits that are written for a number and of the power of
ten that they count: there are at most seventeen digits, and only those of the
greatest number come as close to the overflow bound as it does. -/
structure IsWritable (digits : Nat) (power : Int) : Prop where
  positive : 0 < digits
  small : digits ≤ 10 ^ 17
  inRange : (digits : ℚ) * 10 ^ power ≤ overflow
  last : power = greatestGrid → digits ≤ greatestDigits

theorem isWritable_nearestOnGrid? {negative : Bool} {significand factor : Nat}
    {exponent : Int}
    (standard : IsStandard (.finite negative significand exponent))
    (nonzero : 0 < significand) {count : Nat} (short : count ≤ 17)
    (found : nearestOnGrid? significand exponent
      (decimalPlace significand exponent - count) = some factor) :
    IsWritable factor (decimalPlace significand exponent - count) where
  positive := nearestOnGrid?_pos nonzero found
  small := by
    have bound : factor ≤ 10 ^ count := by
      apply nearestOnGrid?_le found
      have whole : ((10 ^ count : Nat) : ℚ) *
            10 ^ (decimalPlace significand exponent - count) =
          10 ^ decimalPlace significand exponent := by
        rw [zpow_sub₀ (by norm_num), zpow_natCast, Nat.cast_pow,
          Nat.cast_ofNat, mul_div_cancel₀ _ (by positivity)]
      rw [whole]
      exact absolute_lt_decimalPlace nonzero exponent
    exact le_trans bound (Nat.pow_le_pow_right (by decide) short)
  inRange :=
    le_trans (nearestOnGrid?_le_upperBound found)
      (upperBound_le_overflow standard)
  last isLast := by
    rw [isLast] at found
    by_cases isGreatest :
      significand = 2 * leadingBit - 1 ∧ exponent = greatestExponent
    · rw [isGreatest.1, isGreatest.2, nearestOnGrid?_greatest] at found
      exact (Option.some.inj found).ge
    · exact le_trans
        (nearestOnGrid?_le found (absolute_lt_greatestDigits standard isGreatest))
        (Nat.sub_le _ _)

/-- Zeros at the end of digits may be counted in the power instead. -/
theorem IsWritable.withoutZeros {digits zeros : Nat} {power : Int}
    (writable : IsWritable (digits * 10 ^ zeros) power) :
    IsWritable digits (power + zeros) where
  positive := Nat.pos_of_mul_pos_right writable.positive
  small := le_trans (Nat.le_mul_of_pos_right _ (by positivity)) writable.small
  inRange := by
    have inRange := writable.inRange
    rw [Nat.cast_mul, Nat.cast_pow, Nat.cast_ofNat] at inRange
    rw [zpow_add₀ (by norm_num), zpow_natCast]
    linarith
  last isLast := by
    rcases Nat.eq_zero_or_pos zeros with rfl | some
    · have isLast : power = greatestGrid := by simpa using isLast
      simpa using writable.last isLast
    · -- The zeros take the digits far below those of the greatest number.
      have tenth : digits * 10 ≤ 10 ^ 17 := by
        refine le_trans (Nat.mul_le_mul_left _ ?_) writable.small
        exact Nat.le_self_pow some.ne' 10
      have room : 10 ^ 17 ≤ greatestDigits * 10 := by decide
      exact Nat.le_of_mul_le_mul_right (le_trans tenth room) (by decide)

/-- The digits written for a finite number that is not zero are writable, if
any are found at all. -/
theorem isWritable_shortest {negative : Bool} {significand : Nat}
    {exponent : Int}
    (standard : IsStandard (.finite negative significand exponent))
    (nonzero : 0 < significand) :
    shortest significand exponent = (0, 0) ∨
      IsWritable (shortest significand exponent).1
        (shortest significand exponent).2 := by
  rw [shortest]
  rcases shortestFrom_cases significand exponent
      (decimalPlace significand exponent) 1 17 with
    nothing | ⟨count, factor, -, short, found, digits⟩
  · rw [nothing]
    exact .inl rfl
  · rw [digits]
    obtain ⟨zeros, factors, powers⟩ := dropZeros_cases 20 factor
      (decimalPlace significand exponent - count)
    have writable := isWritable_nearestOnGrid? standard nonzero
      (Nat.le_of_lt_succ short) found
    rw [factors] at writable
    rw [powers]
    exact .inr writable.withoutZeros

end ComponentDocs.Binary64
