import ComponentDocs.Number.Binary64

/-!
Numbers in decimal text.

`ofText?` reads the text of a documented default: an optional sign, then a
name of infinity or of no number, or digits with an optional point and an
optional exponent. `write?` gives the fewest digits that read back, in plain
notation for numbers of a moderate size.
-/

namespace ComponentDocs.Binary64

/-! ## Reading -/

def afterExponentMark? : Text → Option Text
  | mark :: rest => if mark = 'e' || mark = 'E' then some rest else none
  | [] => none

/-- The sign at the start of a text, and the rest of it. -/
def splitSign : Text → Bool × Text
  | '-' :: rest => (true, rest)
  | '+' :: rest => (false, rest)
  | text => (false, text)

def digitsValue (digits : Text) : Nat :=
  (Text.toNat? digits).getD 0

/-- The exponent that all of a text writes, or zero when the text is empty. -/
def exponent? (text : Text) : Option Int :=
  if text.isEmpty then some 0
  else do
    let (negative, digits) := splitSign (← afterExponentMark? text)
    let value ← Text.toNat? digits
    some (if negative then -value else value)

/-- The digits of a text after its point, if it starts with one, and the
rest. -/
def splitFraction : Text → Text × Text
  | '.' :: rest => (rest.takeWhile Char.isDigit, rest.dropWhile Char.isDigit)
  | text => ([], text)

def unsigned? (negative : Bool) (text : Text) : Option Binary64 := do
  let whole := text.takeWhile Char.isDigit
  let (fraction, rest) := splitFraction (text.dropWhile Char.isDigit)
  if whole.isEmpty && fraction.isEmpty then none
  else
    let exponent ← exponent? rest
    some <|
      ofDecimal negative (digitsValue (whole ++ fraction))
        (exponent - fraction.length)

def ofText? (text : Text) : Option Binary64 :=
  let (negative, body) := splitSign text
  let name := body.map Char.toLower
  if name = "inf".toList || name = "infinity".toList then
    some (.infinite negative)
  else if name = "nan".toList then some .nan
  else unsigned? negative body

/-! ## The fewest digits -/

/-- The bounds of the reals that round to a finite number, the number itself
and the denominator of all three: `(low, value, high, denominator)`. -/
def neighbourhood (significand : Nat) (exponent : Int) :
    Nat × Nat × Nat × Nat :=
  let shift := exponent - 2
  let up := Nat.pow 2 shift.toNat
  let below :=
    if significand = leadingBit && leastExponent < exponent then 1 else 2
  ((4 * significand - below) * up, 4 * significand * up,
    (4 * significand + 2) * up, Nat.pow 2 (-shift).toNat)

/-- Whether a quotient lies between two bounds of a common denominator; the
bounds themselves belong to an even significand. -/
def liesWithin (even : Bool) (low high denominator top bottom : Nat) : Bool :=
  let left := low * bottom
  let middle := top * denominator
  let right := high * bottom
  if even then left ≤ middle && middle ≤ right
  else left < middle && middle < right

/-- The multiple of `10 ^ power` next to a number that rounds to it, by the
factor of the power. Of two such multiples the nearer is taken, and the even
one of two equally near. -/
def nearestOnGrid? (significand : Nat) (exponent power : Int) : Option Nat :=
  let (low, value, high, denominator) := neighbourhood significand exponent
  let up := Nat.pow 10 power.toNat
  let down := Nat.pow 10 (-power).toNat
  let floor := value * down / (denominator * up)
  let holds (factor : Nat) : Bool :=
    liesWithin (significand % 2 = 0) low high denominator (factor * up) down
  let nearest := roundQuotient (value * down) (denominator * up)
  if holds nearest then some nearest
  else if holds floor then some floor
  else if holds (floor + 1) then some (floor + 1)
  else none

/-- The number of decimal digits before the point of a finite number, or the
number of zeros after the point, negated. -/
def decimalPlace (significand : Nat) (exponent : Int) : Int :=
  let (top, bottom) := magnitude significand exponent
  if bottom ≤ top then (Text.ofNat (top / bottom)).length
  else 1 - (Text.ofNat ((bottom - 1) / top)).length

/-- The first result among `count` digits and fewer, fewest first: digits and
the power of ten that they count. -/
def shortestFrom (significand : Nat) (exponent place : Int) (count : Nat) :
    Nat → Nat × Int
  | 0 => (0, 0)
  | remaining + 1 =>
      let power := place - count
      match nearestOnGrid? significand exponent power with
      | some factor => (factor, power)
      | none => shortestFrom significand exponent place (count + 1) remaining

/-- Take the zeros off the end of a factor of a power of ten. -/
def dropZeros : Nat → Nat × Int → Nat × Int
  | 0, result => result
  | remaining + 1, (factor, power) =>
      if factor != 0 && factor % 10 = 0 then
        dropZeros remaining (factor / 10, power + 1)
      else (factor, power)

/-- The fewest digits that read back as a finite number that is not zero, and
the power of ten that they count. -/
def shortest (significand : Nat) (exponent : Int) : Nat × Int :=
  dropZeros 20 <|
    shortestFrom significand exponent (decimalPlace significand exponent) 1 17

/-! ## Writing -/

/-- Numbers from `10 ^ leastPlain` and below `10 ^ endPlain` are written
without an exponent. -/
def leastPlain : Int := -5

def endPlain : Int := 16

/-- Digits with a point after the first `place` of them, and at least one
digit on each side of it. -/
def writePlain (digits : Text) (place : Int) : Text :=
  if place ≤ 0 then
    ['0', '.'] ++ List.replicate (-place).toNat '0' ++ digits
  else
    let whole := digits.take place.toNat
    let fraction := digits.drop place.toNat
    whole ++ List.replicate (place.toNat - digits.length) '0' ++ ['.'] ++
      (if fraction.isEmpty then ['0'] else fraction)

def writeExponent (exponent : Int) : Text :=
  ['e', if exponent < 0 then '-' else '+'] ++ Text.ofNat exponent.natAbs

/-- Digits with a point after the first, if there are more, and an
exponent. -/
def writeScientific (digits : Text) (exponent : Int) : Text :=
  match digits with
  | [] => []
  | [digit] => digit :: writeExponent exponent
  | digit :: rest => digit :: '.' :: rest ++ writeExponent exponent

/-- The text of a finite number that is not zero. -/
def writeDigits (digits : Text) (power : Int) : Text :=
  let place := digits.length + power
  if leastPlain < place && place ≤ endPlain then writePlain digits place
  else writeScientific digits (place - 1)

/-- The text of a finite number; others have none. -/
def write? : Binary64 → Option Text
  | .finite negative significand exponent =>
      let body :=
        if significand = 0 then "0.0".toList
        else
          let (digits, power) := shortest significand exponent
          writeDigits (Text.ofNat digits) power
      some (if negative then '-' :: body else body)
  | _ => none

end ComponentDocs.Binary64
