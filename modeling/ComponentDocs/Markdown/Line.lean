import ComponentDocs.Text.Basic

/-!
The lines of a Markdown text with their places in it, and the columns of a
line's indentation.

A line ends at a line feed, a carriage return, or both. A tab reaches to the
next column that is a multiple of four; when only a part of it is consumed the
rest of it stands as spaces.
-/

namespace ComponentDocs.Markdown

/-- A line: the offset of its first character in the text, its characters, and
the characters that end it. -/
structure Line where
  start : Nat
  content : Text
  ending : Text
deriving DecidableEq, Repr

namespace Line

def contentEnd (line : Line) : Nat :=
  line.start + line.content.length

/-- The offset just after the line's end. -/
def finish (line : Line) : Nat :=
  line.contentEnd + line.ending.length

/-- Whether the line has an end, as all but the last line do. -/
def isEnded (line : Line) : Bool :=
  !line.ending.isEmpty

/-- The lines of `text`, of which the line being read starts at `start` and
already holds `held`, last character first. -/
def cut (start : Nat) (held : Text) : Text → List Line
  | [] => if held.isEmpty then [] else [⟨start, held.reverse, []⟩]
  | '\n' :: rest =>
      ⟨start, held.reverse, ['\n']⟩ ::
        cut (start + held.length + 1) [] rest
  | '\r' :: '\n' :: rest =>
      ⟨start, held.reverse, ['\r', '\n']⟩ ::
        cut (start + held.length + 2) [] rest
  | '\r' :: rest =>
      ⟨start, held.reverse, ['\r']⟩ ::
        cut (start + held.length + 1) [] rest
  | character :: rest => cut start (character :: held) rest

end Line

/-! ## Characters -/

/-- Whether a character is punctuation, which a backslash makes a character
like any other. -/
def isPunctuation (character : Char) : Bool :=
  let code := character.toNat
  (0x21 ≤ code && code ≤ 0x2F) || (0x3A ≤ code && code ≤ 0x40) ||
    (0x5B ≤ code && code ≤ 0x60) || (0x7B ≤ code && code ≤ 0x7E)

/-! ## Columns -/

def isIndent (character : Char) : Bool :=
  character == ' ' || character == '\t'

/-- What is left of a line, and the column where it stands. -/
structure Cursor where
  column : Nat
  rest : Text
deriving DecidableEq, Repr

namespace Cursor

def skipFrom (column : Nat) : Text → Cursor
  | ' ' :: rest => skipFrom (column + 1) rest
  | '\t' :: rest => skipFrom (column + (4 - column % 4)) rest
  | rest => ⟨column, rest⟩

def skipIndent (cursor : Cursor) : Cursor :=
  skipFrom cursor.column cursor.rest

def indent (cursor : Cursor) : Nat :=
  cursor.skipIndent.column - cursor.column

def visible (cursor : Cursor) : Text :=
  cursor.skipIndent.rest

def isBlank (cursor : Cursor) : Bool :=
  cursor.visible.isEmpty

/-- Past `count` columns of indentation, or past all of it when it is
narrower. -/
def dropFrom (count column : Nat) : Text → Cursor
  | ' ' :: rest =>
      if count = 0 then ⟨column, ' ' :: rest⟩
      else dropFrom (count - 1) (column + 1) rest
  | '\t' :: rest =>
      let width := 4 - column % 4
      if count = 0 then ⟨column, '\t' :: rest⟩
      else if width ≤ count then
        dropFrom (count - width) (column + width) rest
      else ⟨column + count, List.replicate (width - count) ' ' ++ rest⟩
  | rest => ⟨column, rest⟩

def dropColumns (count : Nat) (cursor : Cursor) : Cursor :=
  dropFrom count cursor.column cursor.rest

/-- Past `count` characters, none of which is a tab. -/
def dropMarker (count : Nat) (cursor : Cursor) : Cursor :=
  ⟨cursor.column + count, cursor.rest.drop count⟩

def ofLine (line : Line) : Cursor :=
  ⟨0, line.content⟩

end Cursor

end ComponentDocs.Markdown
