import ComponentDocs.Instant

/-!
The texts of points of time: dates, times, and both together with or without
an offset.
-/

namespace ComponentDocs.Toml.Moment

/-- Past a number of exactly `width` digits, with its value. -/
def number? (width : Nat) (text : Text) : Option (Nat × Text) :=
  if (text.take width).length = width then
    (Text.toNat? (text.take width)).map fun value => (value, text.drop width)
  else none

def afterMark? (mark : Char) : Text → Option Text
  | first :: rest => if first = mark then some rest else none
  | [] => none

def afterDate? (text : Text) : Option Text := do
  let (year, text) ← number? 4 text
  let (month, text) ← number? 2 (← afterMark? '-' text)
  let (day, text) ← number? 2 (← afterMark? '-' text)
  if 1 ≤ month && month ≤ 12 && 1 ≤ day &&
      day ≤ Instant.daysInMonth year month then
    some text
  else none

/-- Past the fraction of a second, if there is one with a digit. -/
def skipFraction : Text → Text
  | '.' :: digit :: rest =>
      if digit.isDigit then rest.dropWhile Char.isDigit
      else '.' :: digit :: rest
  | text => text

/-- Past a time of a day; a leap second is the second 60. -/
def afterTime? (text : Text) : Option Text := do
  let (hour, text) ← number? 2 text
  let (minute, text) ← number? 2 (← afterMark? ':' text)
  let (second, text) ← number? 2 (← afterMark? ':' text)
  if hour ≤ 23 && minute ≤ 59 && second ≤ 60 then some (skipFraction text)
  else none

def afterClock? (text : Text) : Option Text := do
  let (hour, text) ← number? 2 text
  let (minute, text) ← number? 2 (← afterMark? ':' text)
  if hour ≤ 23 && minute ≤ 59 then some text else none

def skipOffset : Text → Text
  | [] => []
  | mark :: rest =>
      if mark = 'Z' || mark = 'z' then rest
      else if mark = '+' || mark = '-' then
        (afterClock? rest).getD (mark :: rest)
      else mark :: rest

/-- Past the time after a date, if there is one. -/
def skipTime : Text → Text
  | [] => []
  | mark :: rest =>
      if mark = 'T' || mark = 't' || mark = ' ' then
        match afterTime? rest with
        | some after => skipOffset after
        | none => mark :: rest
      else mark :: rest

/-- Past the point of time at the start of a text. -/
def after? (text : Text) : Option Text :=
  match afterDate? text with
  | some rest => some (skipTime rest)
  | none => afterTime? text

end ComponentDocs.Toml.Moment
