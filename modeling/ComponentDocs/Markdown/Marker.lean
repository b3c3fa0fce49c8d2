import ComponentDocs.Markdown.Line

/-!
The marks by which the visible part of a line opens, continues or closes a
block: hashes, underlines, rules, fences, list markers and table delimiters.
-/

namespace ComponentDocs.Markdown.Marker

/-- The number of `mark` characters at the start of a text. -/
def run (mark : Char) (text : Text) : Nat :=
  (text.takeWhile (· == mark)).length

/-- Whether a text has no characters but spaces and tabs. -/
def isSpaced (text : Text) : Bool :=
  text.all isIndent

/-- The level of a heading marked by hashes and the text after them. -/
def hashes? (text : Text) : Option (Nat × Text) :=
  let level := run '#' text
  let rest := text.drop level
  if level = 0 || 6 < level then none
  else match rest with
  | [] => some (level, [])
  | next :: _ => if isIndent next then some (level, rest) else none

/-- The level of the heading that a line underlines. -/
def underline? (text : Text) : Option Nat :=
  let double := run '=' text
  let single := run '-' text
  if double ≠ 0 && isSpaced (text.drop double) then some 1
  else if single ≠ 0 && isSpaced (text.drop single) then some 2
  else none

/-- Whether a line is a rule: three or more of one mark, and spaces. -/
def isRule (text : Text) : Bool :=
  match text with
  | [] => false
  | mark :: _ =>
      (mark == '*' || mark == '-' || mark == '_') &&
        text.all (fun character => character == mark || isIndent character) &&
        3 ≤ text.count mark

/-- The mark and length of a code fence. A fence of back-ticks has none in the
text after it. -/
def fence? (text : Text) : Option (Char × Nat) :=
  let ticks := run '\x60' text
  let tildes := run '~' text
  if 3 ≤ ticks then
    if (text.drop ticks).contains '\x60' then none else some ('\x60', ticks)
  else if 3 ≤ tildes then some ('~', tildes)
  else none

def closesFence (mark : Char) (length : Nat) (text : Text) : Bool :=
  let count := run mark text
  length ≤ count && isSpaced (text.drop count)

/-! ## List items -/

/-- Whether the character after a list marker sets the marker off. -/
def isSetOff : Text → Bool
  | [] => true
  | next :: _ => isIndent next

/-- The length of the list marker at the start of a text. Inside a paragraph
only a marker with text after it counts, and of numbers only one. -/
def listMarker? (inParagraph : Bool) (text : Text) : Option Nat :=
  match text with
  | [] => none
  | first :: rest =>
      if first == '*' || first == '-' || first == '+' then
        if isSetOff rest && !(inParagraph && isSpaced rest) then some 1
        else none
      else
        let digits := text.takeWhile Char.isDigit
        match text.dropWhile Char.isDigit with
        | mark :: after =>
            if (mark == '.' || mark == ')') &&
                !digits.isEmpty && digits.length ≤ 9 && isSetOff after &&
                !(inParagraph &&
                  (isSpaced after || digits != ['1'])) then
              some (digits.length + 1)
            else none
        | [] => none

/-! ## Tables -/

def pipes : Text → Nat
  | [] => 0
  | '\\' :: next :: rest =>
      if isPunctuation next then pipes rest else pipes (next :: rest)
  | '|' :: rest => 1 + pipes rest
  | _ :: rest => pipes rest

/-- Whether the text ends with a pipe that no backslash escapes. -/
def endsWithPipe : Text → Bool
  | [] => false
  | '\\' :: next :: rest =>
      if isPunctuation next then endsWithPipe rest
      else endsWithPipe (next :: rest)
  | ['|'] => true
  | _ :: rest => endsWithPipe rest

/-- Whether a line that starts with a character is looked at for other blocks
than tables only. -/
def startsOther (character : Char) : Bool :=
  character.isDigit || "\x60~*_>#=+-<".toList.contains character

/-- The number of cells of the header row of a table, which has a pipe after
its first character. -/
def headerCells? (text : Text) : Option Nat :=
  let row := Text.dropEndWhile isIndent text
  let inner := if row.head? = some '|' then row.tail else row
  let count := pipes inner
  if count = 0 || row.head?.any startsOther then none
  else if endsWithPipe inner then some count
  else some (count + 1)

/-- Whether a cell of a delimiter row is hyphens between optional colons. -/
def isDelimiterCell (cell : Text) : Bool :=
  let core := Text.dropOneEnd ':' <| Text.dropOneStart ':' <|
    Text.dropEndWhile isIndent <| cell.dropWhile isIndent
  !core.isEmpty && core.all (· == '-')

/-- Whether a line is the delimiter row of a table of `columns` columns. -/
def isDelimiterRow (columns : Nat) (text : Text) : Bool :=
  let row := Text.dropEndWhile isIndent text
  let inner := Text.dropOneEnd '|' (Text.dropOneStart '|' row)
  let cells := inner.splitOn '|'
  cells.length == columns && cells.all isDelimiterCell

end ComponentDocs.Markdown.Marker
