import ComponentDocs.Text.Basic

/-!
Writing TOML. A string is written in the first of these forms that holds it
without escapes: between `"`, between `'`, between three `"`, between three
`'`. If there is none, it is escaped between quotes, three of them when it has
line feeds.
-/

namespace ComponentDocs.Toml

/-! ## Forms of strings -/

/-- Whether a character can only be written as an escape. -/
def isControl (character : Char) : Bool :=
  (character.toNat < 32 && character != '\t' && character != '\n') ||
    character.toNat == 127

/-- The length of the longest run of `mark`, given the length of the run
before the text and the longest so far. -/
def longestRunFrom (mark : Char) (current longest : Nat) : Text → Nat
  | [] => longest
  | character :: rest =>
      if character = mark then
        longestRunFrom mark (current + 1) (max longest (current + 1)) rest
      else longestRunFrom mark 0 longest rest

def longestRun (mark : Char) (text : Text) : Nat :=
  longestRunFrom mark 0 0 text

def fitsBasic (text : Text) : Bool :=
  !text.any isControl && !text.contains '\\' && !text.contains '"' &&
    !text.contains '\n'

def fitsLiteral (text : Text) : Bool :=
  !text.any isControl && !text.contains '\'' && !text.contains '\n'

/-- Whether no escape is needed between three `"`. -/
def fitsBasicLines (text : Text) : Bool :=
  !text.any isControl && !text.contains '\\' && longestRun '"' text ≤ 2

/-- Whether a text can stand between three `'`. -/
def fitsLiteralLines (text : Text) : Bool :=
  !text.any isControl && longestRun '\'' text ≤ 2

/-! ## Strings -/

def escapeCode (character : Char) : Text :=
  let digits := (Nat.toDigits 16 character.toNat).map Char.toUpper
  ['\\', 'u'] ++ List.replicate (4 - digits.length) '0' ++ digits

def escapeOne (overLines : Bool) (character : Char) : Text :=
  if character = '\n' then if overLines then ['\n'] else ['\\', 'n']
  else if character = '\\' then ['\\', '\\']
  else if character = '\t' then ['\\', 't']
  else if character = '\x08' then ['\\', 'b']
  else if character = '\x0c' then ['\\', 'f']
  else if character = '\r' then ['\\', 'r']
  else if isControl character then escapeCode character
  else [character]

/-- A text between quotes. Over lines two adjacent quotes may stand without
escape, of which `quotes` stand before the text. -/
def escapeFrom (overLines : Bool) (quotes : Nat) : Text → Text
  | [] => []
  | '"' :: rest =>
      if (if overLines then 2 else 0) ≤ quotes then
        '\\' :: '"' :: escapeFrom overLines 0 rest
      else '"' :: escapeFrom overLines (quotes + 1) rest
  | character :: rest =>
      escapeOne overLines character ++ escapeFrom overLines 0 rest

/-- The line feed after the opening quotes of a text with line feeds. -/
def firstLineFeed (text : Text) : Text :=
  if text.contains '\n' then ['\n'] else []

def basic (text : Text) : Text :=
  ['"'] ++ escapeFrom false 0 text ++ ['"']

def basicLines (text : Text) : Text :=
  "\"\"\"".toList ++ firstLineFeed text ++ escapeFrom true 0 text ++
    "\"\"\"".toList

def literal (text : Text) : Text :=
  ['\''] ++ text ++ ['\'']

def literalLines (text : Text) : Text :=
  "'''".toList ++ firstLineFeed text ++ text ++ "'''".toList

def writeText (text : Text) : Text :=
  if fitsBasic text then basic text
  else if fitsLiteral text then literal text
  else if fitsBasicLines text then basicLines text
  else if fitsLiteralLines text then literalLines text
  else if text.contains '\n' then basicLines text
  else basic text

/-! ## Lists and lines -/

/-- An item of a list on a line of its own. -/
def writeItem (text : Text) : Text :=
  "\n    ".toList ++ writeText text ++ [',']

/-- A list of strings: on one line when it has at most one item. -/
def writeTexts : List Text → Text
  | [] => "[]".toList
  | [text] => ['['] ++ writeText text ++ [']']
  | texts => ['['] ++ texts.flatMap writeItem ++ "\n]".toList

def writeLine (key value : Text) : Text :=
  key ++ " = ".toList ++ value ++ ['\n']

def writeHeader (key : Text) : Text :=
  ['['] ++ key ++ "]\n".toList

end ComponentDocs.Toml
