import ComponentDocs.Json.Basic
import ComponentDocs.Number.Decimal

/-!
The number literals of JSON and the floating-point numbers they stand for.

A literal is not rounded once: as many of its leading digits as fit into 64
bits are rounded to a number, and that number times or over a rounded power of
ten is rounded again.
-/

namespace ComponentDocs.Json.Literal

/-! ## The text of a literal -/

/-- The whole part: a zero alone, or digits that start with another digit. -/
def whole? : Text → Option (Text × Text)
  | [] => none
  | digit :: rest =>
      if digit = '0' then some (['0'], rest)
      else if digit.isDigit then
        some (digit :: rest.takeWhile Char.isDigit,
          rest.dropWhile Char.isDigit)
      else none

/-- A point with at least one digit, or nothing. -/
def fraction : Text → Text × Text
  | '.' :: rest =>
      if (rest.takeWhile Char.isDigit).isEmpty then ([], '.' :: rest)
      else
        ('.' :: rest.takeWhile Char.isDigit, rest.dropWhile Char.isDigit)
  | text => ([], text)

def exponentSign : Text → Text × Text
  | '+' :: rest => (['+'], rest)
  | '-' :: rest => (['-'], rest)
  | text => ([], text)

/-- An exponent with at least one digit, or nothing. -/
def exponent : Text → Text × Text
  | [] => ([], [])
  | mark :: rest =>
      let (sign, digits) := exponentSign rest
      if (mark = 'e' || mark = 'E') &&
          !(digits.takeWhile Char.isDigit).isEmpty then
        (mark :: sign ++ digits.takeWhile Char.isDigit,
          digits.dropWhile Char.isDigit)
      else ([], mark :: rest)

/-- The literal at the start of a text without sign, and the rest. -/
def unsigned? (text : Text) : Option (Text × Text) :=
  (whole? text).map fun (whole, afterWhole) =>
    let (point, afterPoint) := fraction afterWhole
    let (power, rest) := exponent afterPoint
    (whole ++ point ++ power, rest)

/-- The literal at the start of a text, and the rest. -/
def read? : Text → Option (Text × Text)
  | '-' :: rest =>
      (unsigned? rest).map fun (literal, after) => ('-' :: literal, after)
  | text => unsigned? text

/-! ## The number of a literal -/

/-- Add digits to a significand as long as it fits into 64 bits; the digits
that are left are given too. -/
def addDigits (significand : Nat) : Text → Nat × Text
  | [] => (significand, [])
  | digit :: rest =>
      let next := significand * 10 + (digit.toNat - 48)
      if greatestNatural < next then (significand, digit :: rest)
      else addDigits next rest

def greatestPower : Nat := 308

def greatestExponent : Nat := Nat.pow 2 31 - 1

/-- Divide by a power of ten in steps of the greatest power, at most `steps`
of them. -/
def divide (exponent : Nat) (number : Binary64) : Nat → Binary64
  | 0 => number
  | steps + 1 =>
      if exponent ≤ greatestPower then number.overPowerOfTen exponent
      else
        divide (exponent - greatestPower)
          (number.overPowerOfTen greatestPower) steps

/-- Three steps of the greatest power take every significand to zero. -/
def divisionSteps : Nat := 4

/-- The number `significand * 10 ^ exponent`; `none` when it is too great. -/
def scaled? (significand : Nat) (exponent : Int) : Option Binary64 :=
  let number := Binary64.ofNat significand
  if exponent < 0 then some (divide exponent.natAbs number divisionSteps)
  else if significand = 0 then some number
  else if greatestPower < exponent.toNat then none
  else
    match number.timesPowerOfTen exponent.toNat with
    | .infinite _ => none
    | product => some product

/-- The number of the digits before and after the point and of the text of
the exponent. -/
def ofParts? (whole fraction power : Text) : Option Binary64 :=
  let (leading, skipped) := addDigits 0 whole
  let (significand, ignored) := addDigits leading fraction
  let base : Int :=
    (skipped.length : Int) - (fraction.length - ignored.length : Nat)
  let (sign, digits) := exponentSign power
  let size := Binary64.digitsValue digits
  if sign = ['-'] then
    if greatestExponent < size then some (Binary64.zero false)
    else scaled? significand (base - size)
  else if greatestExponent < size then
    if significand = 0 then some (Binary64.zero false) else none
  else scaled? significand (base + size)

/-- The digits after the point at the start of a text, and the rest. -/
def splitPoint : Text → Text × Text
  | '.' :: rest => (rest.takeWhile Char.isDigit, rest.dropWhile Char.isDigit)
  | text => ([], text)

def unsignedNumber? (literal : Text) : Option Binary64 :=
  let whole := literal.takeWhile Char.isDigit
  let (fraction, power) := splitPoint (literal.dropWhile Char.isDigit)
  ofParts? whole fraction power.tail

/-- The number of a literal; `none` when it is too great. -/
def number? : Text → Option Binary64
  | '-' :: rest => (unsignedNumber? rest).map Binary64.negate
  | literal => unsignedNumber? literal

end ComponentDocs.Json.Literal
