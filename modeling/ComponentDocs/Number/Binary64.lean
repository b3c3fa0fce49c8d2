import ComponentDocs.Text.Basic

/-!
Binary floating-point numbers of 64 bits, with exact rounding in whole
numbers: every operation takes the exact quotient to the nearest number, and a
tie to the one with the even significand.
-/

namespace ComponentDocs

/-- A binary floating-point number. A finite one stands for
`significand * 2 ^ exponent`, negated when it is negative; its significand is
less than `2 ^ 53`, and at least `2 ^ 52` unless the exponent is the least. -/
inductive Binary64
  | nan
  | infinite (negative : Bool)
  | finite (negative : Bool) (significand : Nat) (exponent : Int)
deriving DecidableEq, Repr

namespace Binary64

/-! ## Rounding -/

/-- The least and the greatest exponent of a finite number. -/
def leastExponent : Int := -1074

def greatestExponent : Int := 971

def precision : Nat := 53

/-- The weight of the first bit of a significand. -/
def leadingBit : Nat := Nat.pow 2 (precision - 1)

def zero (negative : Bool) : Binary64 :=
  .finite negative 0 leastExponent

/-- The whole number next to a quotient; a tie goes to the even one. -/
def roundQuotient (numerator denominator : Nat) : Nat :=
  let quotient := numerator / denominator
  let twice := 2 * (numerator % denominator)
  if twice < denominator then quotient
  else if denominator < twice then quotient + 1
  else quotient + quotient % 2

/-- A quotient divided by `2 ^ exponent`, as numerator and denominator. -/
def scale (exponent : Int) (numerator denominator : Nat) : Nat × Nat :=
  (numerator * Nat.pow 2 (-exponent).toNat,
    denominator * Nat.pow 2 exponent.toNat)

/-- The exponent at which the whole part of a quotient has all bits of a
significand, or the least exponent when that is greater. -/
def exponentOf (numerator denominator : Nat) : Int :=
  let guess : Int :=
    (Nat.log2 numerator : Int) - Nat.log2 denominator - precision
  let low := max guess leastExponent
  let (top, bottom) := scale low numerator denominator
  if top / bottom < 2 * leadingBit then low else low + 1

/-- The finite number of a significand that rounding may have carried to the
next power of two. It is infinite when the exponent is too great. -/
def ofSignificand (negative : Bool) (significand : Nat) (exponent : Int) :
    Binary64 :=
  let (significand, exponent) :=
    if significand = 2 * leadingBit then (leadingBit, exponent + 1)
    else (significand, exponent)
  if greatestExponent < exponent then .infinite negative
  else .finite negative significand exponent

/-- The number nearest to `numerator / denominator`, of the given sign. -/
def ofQuotient (negative : Bool) (numerator denominator : Nat) : Binary64 :=
  if numerator = 0 then zero negative
  else
    let exponent := exponentOf numerator denominator
    let (top, bottom) := scale exponent numerator denominator
    ofSignificand negative (roundQuotient top bottom) exponent

/-- The number nearest to a whole number. -/
def ofNat (value : Nat) : Binary64 :=
  ofQuotient false value 1

/-- Decimal exponents outside of these bounds give infinity and zero. -/
def decimalBound : Nat := 400

/-- The number nearest to `digits * 10 ^ exponent`, of the given sign. -/
def ofDecimal (negative : Bool) (digits : Nat) (exponent : Int) : Binary64 :=
  let size : Int := (Text.ofNat digits).length + exponent
  if digits = 0 || size < -decimalBound then zero negative
  else if (decimalBound : Int) < size then .infinite negative
  else
    ofQuotient negative (digits * Nat.pow 10 exponent.toNat)
      (Nat.pow 10 (-exponent).toNat)

/-! ## Arithmetic -/

/-- The absolute value of a finite number, as numerator and denominator. -/
def magnitude (significand : Nat) (exponent : Int) : Nat × Nat :=
  scale (-exponent) significand 1

/-- The product with a positive power of ten that is itself rounded. -/
def timesPowerOfTen (power : Nat) : Binary64 → Binary64
  | .finite negative significand exponent =>
      match ofNat (Nat.pow 10 power) with
      | .finite _ factor shift =>
          let (top, bottom) :=
            magnitude (significand * factor) (exponent + shift)
          ofQuotient negative top bottom
      | _ => .nan
  | number => number

/-- The quotient by a positive power of ten that is itself rounded. -/
def overPowerOfTen (power : Nat) : Binary64 → Binary64
  | .finite negative significand exponent =>
      match ofNat (Nat.pow 10 power) with
      | .finite _ divisor shift =>
          let (top, bottom) := magnitude significand (exponent - shift)
          ofQuotient negative top (divisor * bottom)
      | _ => .nan
  | number => number

def negate : Binary64 → Binary64
  | .nan => .nan
  | .infinite negative => .infinite (!negative)
  | .finite negative significand exponent =>
      .finite (!negative) significand exponent

/-! ## Bits -/

/-- The 64 bits of a number as a whole number; `none` for what is no
number. -/
def bits? : Binary64 → Option Nat
  | .nan => none
  | .infinite negative => some (signBit negative + 2047 * leadingBit)
  | .finite negative significand exponent =>
      let field :=
        if significand < leadingBit then 0
        else (exponent - leastExponent + 1).toNat
      some (signBit negative + field * leadingBit + significand % leadingBit)
where
  /-- The weight of the sign. -/
  signBit (negative : Bool) : Nat := if negative then Nat.pow 2 63 else 0

def hexadecimal? (number : Binary64) : Option Text :=
  number.bits?.map fun bits =>
    let digits := Nat.toDigits 16 bits
    List.replicate (16 - digits.length) '0' ++ digits

end Binary64

end ComponentDocs
