/-!
Texts as lists of characters: blanks, trimming, lines, search and order.

A text is a list of Unicode scalar values, so that every operation below is a
plain recursion and positions count characters.
-/

namespace ComponentDocs

abbrev Text := List Char

namespace Text

/-! ## Blanks and trimming -/

/-- The characters with Unicode's property `White_Space`. -/
def isBlank (character : Char) : Bool :=
  let code := character.toNat
  (0x09 ≤ code && code ≤ 0x0D) || code == 0x20 || code == 0x85 ||
    code == 0xA0 || code == 0x1680 || (0x2000 ≤ code && code ≤ 0x200A) ||
    code == 0x2028 || code == 0x2029 || code == 0x202F || code == 0x205F ||
    code == 0x3000

/-- Drop the longest end whose characters all pass `test`. -/
def dropEndWhile (test : Char → Bool) (text : Text) : Text :=
  (text.reverse.dropWhile test).reverse

def trimStart (text : Text) : Text :=
  text.dropWhile isBlank

def trimEnd (text : Text) : Text :=
  dropEndWhile isBlank text

/-- Drop the blanks at both ends. -/
def trim (text : Text) : Text :=
  trimEnd (trimStart text)

/-- The words of a text: its longest pieces without blanks. -/
def words (text : Text) : List Text :=
  (text.splitOnP isBlank).filter (!·.isEmpty)

/-! ## Pieces -/

/-- The part before the first `separator` and the part after it, when the
separator occurs. -/
def splitOnce (separator : Char) (text : Text) : Option (Text × Text) :=
  match text.dropWhile (· != separator) with
  | [] => none
  | _ :: rest => some (text.takeWhile (· != separator), rest)

def withoutStart? (first : Text) (text : Text) : Option Text :=
  if first.isPrefixOf text then some (text.drop first.length) else none

/-- The text without one `first` character, if it starts with one. -/
def dropOneStart (first : Char) (text : Text) : Text :=
  if text.head? = some first then text.tail else text

/-- The text without one `last` character, if it ends with one. -/
def dropOneEnd (last : Char) (text : Text) : Text :=
  if text.getLast? = some last then text.dropLast else text

def hasPiece (piece : Text) : Text → Bool
  | [] => piece.isEmpty
  | character :: rest =>
      piece.isPrefixOf (character :: rest) || hasPiece piece rest

/-- The texts one after another, with `separator` between two of them. -/
def join (separator : Text) : List Text → Text
  | [] => []
  | [text] => text
  | text :: rest => text ++ separator ++ join separator rest

/-- The lines of a text with their line feeds; only the last line may lack
one, and no line is empty. -/
def linesWithEnds : Text → List Text
  | [] => []
  | '\n' :: rest => ['\n'] :: linesWithEnds rest
  | character :: rest =>
      match linesWithEnds rest with
      | [] => [[character]]
      | line :: lines =>
          (character :: line) :: lines

/-! ## Escaped pipes -/

/-- Put `stand` for each pipe that a backslash escapes. -/
def hidePipes (stand : Char) : Text → Text
  | [] => []
  | '\\' :: '|' :: rest => stand :: hidePipes stand rest
  | character :: rest => character :: hidePipes stand rest

def showPipes (stand : Char) (pipe : Text) (text : Text) : Text :=
  text.flatMap fun character =>
    if character == stand then pipe else [character]

def escapedPipe : Text :=
  ['\\', '|']

def unescapePipes : Text → Text
  | [] => []
  | '\\' :: '|' :: rest => '|' :: unescapePipes rest
  | character :: rest => character :: unescapePipes rest

def dropEscapedPipes : Text → Text
  | [] => []
  | '\\' :: '|' :: rest => dropEscapedPipes rest
  | character :: rest => character :: dropEscapedPipes rest

/-! ## Comparison -/

/-- Equality up to the case of the ASCII letters. -/
def sameIgnoringCase (left right : Text) : Bool :=
  left.map Char.toLower == right.map Char.toLower

/-- The order of texts by their first differing code point. -/
def atMost : Text → Text → Bool
  | [], _ => true
  | _ :: _, [] => false
  | left :: lefts, right :: rights =>
      left.toNat < right.toNat ||
        (left == right && atMost lefts rights)

def utf8Length : Text → Nat
  | [] => 0
  | character :: rest => character.utf8Size + utf8Length rest

def ofNat (number : Nat) : Text :=
  Nat.toDigits 10 number

/-- The number that a run of ASCII digits stands for; `none` for any other
text. -/
def toNat? (digits : Text) : Option Nat :=
  if digits.isEmpty || !digits.all Char.isDigit then none
  else some <|
    digits.foldl (fun value digit => value * 10 + (digit.toNat - 48)) 0

end Text

end ComponentDocs
