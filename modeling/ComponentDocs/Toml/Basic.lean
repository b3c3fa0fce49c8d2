import ComponentDocs.Text.Basic

/-!
TOML values, and the characters that their texts are made of.

Numbers and points of time keep the text they are written in.
-/

namespace ComponentDocs.Toml

/-- A TOML value. No key of a table occurs twice. -/
inductive Value
  | text (content : Text)
  | boolean (value : Bool)
  | number (literal : Text)
  | moment (literal : Text)
  | array (items : List Value)
  | table (entries : List (Text × Value))

/-! ## Characters -/

/-- Whether a character is a blank within a line. -/
def isSpace (character : Char) : Bool :=
  character == ' ' || character == '\t'

/-- Drop the blanks before a token. -/
def skipSpaces (text : Text) : Text :=
  text.dropWhile isSpace

/-- Whether a character may stand in comments and strings as it is. -/
def isPlain (character : Char) : Bool :=
  character == '\t' || (32 ≤ character.toNat && character.toNat != 127)

def afterLineEnd? : Text → Option Text
  | '\n' :: rest => some rest
  | '\r' :: '\n' :: rest => some rest
  | _ => none

/-- Past the comment at the start of a text, up to the end of its line. -/
def skipComment : Text → Text
  | '#' :: rest => rest.dropWhile isPlain
  | text => text

/-- Past the end of a line, with the blanks and the comment before it. -/
def finishLine? (text : Text) : Option Text :=
  match skipComment (skipSpaces text) with
  | [] => some []
  | rest => afterLineEnd? rest

/-- Past blanks, comments and line ends; `inComment` tells whether the text
starts inside a comment. -/
def skipGap (inComment : Bool) : Text → Text
  | [] => []
  | '\n' :: rest => skipGap false rest
  | '\r' :: '\n' :: rest => skipGap false rest
  | character :: rest =>
      if inComment then
        if isPlain character then skipGap true rest else character :: rest
      else if isSpace character then skipGap false rest
      else if character = '#' then skipGap true rest
      else character :: rest

end ComponentDocs.Toml
