import ComponentDocs.Text.Basic

/-!
Instants of the UTC calendar and their text, `2024-05-01T10:20:30.250Z`.

Reading accepts any offset from UTC and spaces between the parts. A leap second
is the second 60 of its minute.
-/

namespace ComponentDocs

/-- An instant by its fields in UTC. -/
structure Instant where
  year : Int
  month : Nat
  day : Nat
  hour : Nat
  minute : Nat
  second : Nat
  nanosecond : Nat
deriving DecidableEq, Repr

namespace Instant

/-! ## The calendar -/

def isLeapYear (year : Int) : Bool :=
  year % 4 == 0 && (year % 100 != 0 || year % 400 == 0)

def daysInMonth (year : Int) (month : Nat) : Nat :=
  if month = 2 then if isLeapYear year then 29 else 28
  else if month = 4 || month = 6 || month = 9 || month = 11 then 30
  else 31

def firstYear : Int := -262143

def lastYear : Int := 262142

/-- Whether the fields name an instant of the calendar. -/
def isValid (instant : Instant) : Bool :=
  firstYear ≤ instant.year && instant.year ≤ lastYear &&
    1 ≤ instant.month && instant.month ≤ 12 &&
    1 ≤ instant.day &&
    instant.day ≤ daysInMonth instant.year instant.month &&
    instant.hour ≤ 23 && instant.minute ≤ 59 && instant.second ≤ 60 &&
    instant.nanosecond < 1000000000

def nextDay (instant : Instant) : Instant :=
  if instant.day < daysInMonth instant.year instant.month then
    { instant with day := instant.day + 1 }
  else if instant.month < 12 then
    { instant with month := instant.month + 1, day := 1 }
  else { instant with year := instant.year + 1, month := 1, day := 1 }

def previousDay (instant : Instant) : Instant :=
  if 1 < instant.day then { instant with day := instant.day - 1 }
  else if 1 < instant.month then
    { instant with
      month := instant.month - 1
      day := daysInMonth instant.year (instant.month - 1) }
  else { instant with year := instant.year - 1, month := 12, day := 31 }

/-- The instant `minutes` minutes earlier, less than a day before or after. -/
def earlier (minutes : Int) (instant : Instant) : Instant :=
  let total : Int := instant.hour * 60 + instant.minute - minutes
  let moved :=
    if total < 0 then instant.previousDay
    else if 1440 ≤ total then instant.nextDay
    else instant
  let minuteOfDay := (total % 1440).toNat
  { moved with hour := minuteOfDay / 60, minute := minuteOfDay % 60 }

/-! ## Writing -/

def padded (width number : Nat) : Text :=
  let digits := Text.ofNat number
  List.replicate (width - digits.length) '0' ++ digits

/-- The year: four digits, or a sign and at least four digits when it is
outside of 0 to 9999. -/
def writeYear (year : Int) : Text :=
  if year < 0 then '-' :: padded 4 year.natAbs
  else if 9999 < year then '+' :: padded 4 year.natAbs
  else padded 4 year.natAbs

/-- The fraction of a second in no, three, six or nine digits, the fewest that
hold it. -/
def writeFraction (nanosecond : Nat) : Text :=
  if nanosecond = 0 then []
  else if nanosecond % 1000000 = 0 then '.' :: padded 3 (nanosecond / 1000000)
  else if nanosecond % 1000 = 0 then '.' :: padded 6 (nanosecond / 1000)
  else '.' :: padded 9 nanosecond

def write (instant : Instant) : Text :=
  writeYear instant.year ++ ['-'] ++ padded 2 instant.month ++ ['-'] ++
    padded 2 instant.day ++ ['T'] ++ padded 2 instant.hour ++ [':'] ++
    padded 2 instant.minute ++ [':'] ++ padded 2 instant.second ++
    writeFraction instant.nanosecond ++ ['Z']

/-! ## Reading -/

/-- The number in the first at most `width` digits after blanks, and the rest
of the text. -/
def number? (width : Nat) (text : Text) : Option (Nat × Text) :=
  let trimmed := Text.trimStart text
  let digits := (trimmed.take width).takeWhile Char.isDigit
  (Text.toNat? digits).map fun value => (value, trimmed.drop digits.length)

/-- The number in all digits at the start of a text. -/
def wholeNumber? (text : Text) : Option (Nat × Text) :=
  (Text.toNat? (text.takeWhile Char.isDigit)).map fun value =>
    (value, text.dropWhile Char.isDigit)

/-- A year: four digits at most, or a sign and any number of digits. -/
def year? (text : Text) : Option (Int × Text) :=
  match Text.trimStart text with
  | '-' :: rest => (wholeNumber? rest).map fun (value, after) => (-value, after)
  | '+' :: rest => (wholeNumber? rest).map fun (value, after) => (value, after)
  | rest => (number? 4 rest).map fun (value, after) => (value, after)

def afterMark? (mark : Char) (text : Text) : Option Text :=
  match Text.trimStart text with
  | first :: rest => if first = mark then some rest else none
  | [] => none

/-- Past the mark between the date and the time. -/
def afterDate? : Text → Option Text
  | first :: rest =>
      if first = 'T' || first = 't' || first = ' ' then some rest else none
  | [] => none

/-- The nanoseconds of a fraction, of which nine digits count. -/
def fraction? : Text → Option (Nat × Text)
  | '.' :: rest =>
      let digits := rest.takeWhile Char.isDigit
      let kept := digits.take 9
      (Text.toNat? kept).map fun value =>
        (value * Nat.pow 10 (9 - kept.length), rest.dropWhile Char.isDigit)
  | rest => some (0, rest)

def twoDigits? : Text → Option (Nat × Text)
  | tens :: ones :: rest =>
      (Text.toNat? [tens, ones]).map fun value => (value, rest)
  | _ => none

/-- The hours and minutes of an offset, in minutes. -/
def clock? (text : Text) : Option (Nat × Text) := do
  let (hours, afterHours) ← twoDigits? text
  let (minutes, rest) ← twoDigits? <|
    afterHours.dropWhile fun character =>
      character == ':' || Text.isBlank character
  if hours ≤ 23 && minutes ≤ 59 then some (hours * 60 + minutes, rest)
  else none

def offset? (text : Text) : Option (Int × Text) :=
  if (text.take 3).map Char.toLower == "utc".toList then some (0, text.drop 3)
  else
    match text with
    | 'Z' :: rest => some (0, rest)
    | 'z' :: rest => some (0, rest)
    | '+' :: rest => (clock? rest).map fun (minutes, after) => (minutes, after)
    | '-' :: rest => (clock? rest).map fun (minutes, after) => (-minutes, after)
    | '−' :: rest => (clock? rest).map fun (minutes, after) => (-minutes, after)
    | _ => none

def read? (text : Text) : Option Instant := do
  let (year, text) ← year? text
  let (month, text) ← number? 2 (← afterMark? '-' text)
  let (day, text) ← number? 2 (← afterMark? '-' text)
  let (hour, text) ← number? 2 (← afterDate? text)
  let (minute, text) ← number? 2 (← afterMark? ':' text)
  let (second, text) ← number? 2 (← afterMark? ':' text)
  let (nanosecond, text) ← fraction? text
  let (offset, text) ← offset? (Text.trimStart text)
  let named : Instant :=
    { year, month, day, hour, minute, second, nanosecond }
  let instant := named.earlier offset
  if (Text.trimStart text).isEmpty && named.isValid && instant.isValid then
    some instant
  else none

end Instant

end ComponentDocs
