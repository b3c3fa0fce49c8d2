import ComponentDocs.Number.Decimal

/-!
The texts of numbers: whole numbers of 64 bits in four bases, and
floating-point numbers. An underscore may stand between two digits.
-/

namespace ComponentDocs.Toml.Number

/-! ## Digits -/

def isDigitOf (base : Nat) (character : Char) : Bool :=
  if base = 16 then
    character.isDigit || ('a' ≤ character && character ≤ 'f') ||
      ('A' ≤ character && character ≤ 'F')
  else character.isDigit && character.toNat - 48 < base

def digitValue (digit : Char) : Nat :=
  if digit.isDigit then digit.toNat - 48 else digit.toLower.toNat - 87

/-- More digits after a first one, without their underscores, and the rest;
`none` when an underscore has no digit after it. -/
def moreDigits? (base : Nat) : Text → Option (Text × Text)
  | [] => some ([], [])
  | '_' :: digit :: rest =>
      if isDigitOf base digit then
        (moreDigits? base rest).map fun (digits, after) =>
          (digit :: digits, after)
      else none
  | ['_'] => none
  | digit :: rest =>
      if isDigitOf base digit then
        (moreDigits? base rest).map fun (digits, after) =>
          (digit :: digits, after)
      else some ([], digit :: rest)

def digits? (base : Nat) : Text → Option (Text × Text)
  | [] => none
  | digit :: rest =>
      if isDigitOf base digit then
        (moreDigits? base rest).map fun (digits, after) =>
          (digit :: digits, after)
      else none

/-- The digits of a decimal whole number: a zero alone, or digits that start
with another digit. -/
def wholeDigits? : Text → Option (Text × Text)
  | '0' :: rest => some (['0'], rest)
  | text => digits? 10 text

def value (base : Nat) (digits : Text) : Nat :=
  digits.foldl (fun sum digit => sum * base + digitValue digit) 0

/-! ## Whole numbers -/

/-- Whether a whole number has 64 bits with a sign. -/
def fits (negative : Bool) (magnitude : Nat) : Bool :=
  if negative then magnitude ≤ Nat.pow 2 63 else magnitude < Nat.pow 2 63

/-- Past a whole number with a mark of its base. -/
def afterBased? (base : Nat) (text : Text) : Option Text := do
  let (digits, rest) ← digits? base text
  if fits false (value base digits) then some rest else none

def afterDecimal? (text : Text) : Option Text := do
  let (negative, unsigned) := Binary64.splitSign text
  let (digits, rest) ← wholeDigits? unsigned
  if fits negative (value 10 digits) then some rest else none

def afterWhole? : Text → Option Text
  | '0' :: 'x' :: rest => afterBased? 16 rest
  | '0' :: 'o' :: rest => afterBased? 8 rest
  | '0' :: 'b' :: rest => afterBased? 2 rest
  | text => afterDecimal? text

/-! ## Floating-point numbers -/

def exponent? : Text → Option (Text × Text)
  | mark :: rest =>
      if mark = 'e' || mark = 'E' then
        let (negative, unsigned) := Binary64.splitSign rest
        (digits? 10 unsigned).map fun (digits, after) =>
          (['e', if negative then '-' else '+'] ++ digits, after)
      else none
  | [] => none

/-- A point with digits after it, and an exponent if there is one. -/
def fraction? : Text → Option (Text × Text)
  | '.' :: rest =>
      (digits? 10 rest).map fun (digits, after) =>
        match exponent? after with
        | some (power, remaining) => ('.' :: digits ++ power, remaining)
        | none => ('.' :: digits, after)
  | _ => none

/-- Past a decimal floating-point number, which must not be too great. -/
def afterFloat? (text : Text) : Option Text := do
  let (negative, unsigned) := Binary64.splitSign text
  let (whole, afterDigits) ← wholeDigits? unsigned
  let (tail, rest) ← (exponent? afterDigits).or (fraction? afterDigits)
  let sign := if negative then ['-'] else []
  if Binary64.ofText? (sign ++ whole ++ tail) = some (.infinite false) then
    none
  else some rest

/-- Past a name of infinity or of no number. -/
def afterName? (text : Text) : Option Text :=
  let unsigned := (Binary64.splitSign text).2
  (Text.withoutStart? "inf".toList unsigned).or
    (Text.withoutStart? "nan".toList unsigned)

/-- Past the number at the start of a text. -/
def after? (text : Text) : Option Text :=
  ((afterFloat? text).or (afterName? text)).or (afterWhole? text)

end ComponentDocs.Toml.Number
