import ComponentDocs.Markdown.Line

/-!
Link reference definitions, `[label]: destination "title"`, at the start of a
paragraph. They are no part of the paragraph's text, so a heading underline
below nothing but definitions underlines nothing.
-/

namespace ComponentDocs.Markdown.LinkReference

def isSpace (character : Char) : Bool :=
  isIndent character || character == '\n'

def labelLimit : Nat := 1000

/-- What follows a label whose opening bracket has been read; `seen` tells
whether it has a character that is not white space. -/
def afterLabel? (seen : Bool) : Nat → Text → Option Text
  | 0, _ => none
  | _ + 1, [] => none
  | _ + 1, ']' :: rest => if seen then some rest else none
  | _ + 1, '[' :: _ => none
  | room + 1, '\\' :: next :: rest =>
      if isPunctuation next then afterLabel? true room rest
      else afterLabel? true room (next :: rest)
  | room + 1, character :: rest =>
      afterLabel? (seen || !isSpace character) room rest

/-- Whether an opening bracket and what follows it are the box of a task that is
done, which is never read as a label. -/
def isTaskBox : Text → Bool
  | mark :: ']' :: _ => mark == 'x' || mark == 'X'
  | _ => false

/-- Past indentation with at most one line end in it. -/
def skipSpace (text : Text) : Text :=
  match text.dropWhile isIndent with
  | '\n' :: rest => rest.dropWhile isIndent
  | rest => rest

/-- What follows a destination in angle brackets, the first one read. -/
def afterBracketed? : Text → Option Text
  | [] => none
  | '>' :: rest => some rest
  | '\n' :: _ => none
  | '<' :: _ => none
  | '\\' :: next :: rest =>
      if isPunctuation next then afterBracketed? rest
      else afterBracketed? (next :: rest)
  | _ :: rest => afterBracketed? rest

/-- What follows a bare destination: neither spaces nor controls, and its
parentheses in pairs. -/
def afterBare? (depth : Nat) : Text → Option Text
  | [] => if depth = 0 then some [] else none
  | '\\' :: next :: rest =>
      if isPunctuation next then afterBare? depth rest
      else afterBare? depth (next :: rest)
  | '(' :: rest => if depth < 32 then afterBare? (depth + 1) rest else none
  | ')' :: rest =>
      if depth = 0 then some (')' :: rest) else afterBare? (depth - 1) rest
  | character :: rest =>
      if character.toNat ≤ 0x20 || character.toNat == 0x7F then
        if depth = 0 then some (character :: rest) else none
      else afterBare? depth rest

def afterDestination? : Text → Option Text
  | '<' :: rest => afterBracketed? rest
  | text =>
      match afterBare? 0 text with
      | some rest => if rest.length = text.length then none else some rest
      | none => none

/-- What follows a title that `close` ends, the opening mark read. -/
def afterTitleMark? (close : Char) : Text → Option Text
  | [] => none
  | '\\' :: next :: rest =>
      if isPunctuation next then afterTitleMark? close rest
      else afterTitleMark? close (next :: rest)
  | character :: rest =>
      if character = close then some rest
      else if character = '(' && close = ')' then none
      else afterTitleMark? close rest

def afterTitle? : Text → Option Text
  | '"' :: rest => afterTitleMark? '"' rest
  | '\'' :: rest => afterTitleMark? '\'' rest
  | '(' :: rest => afterTitleMark? ')' rest
  | _ => none

/-- What follows the end of a line, when only indentation stands before it. -/
def afterLine? (text : Text) : Option Text :=
  match text.dropWhile isIndent with
  | [] => some []
  | '\n' :: rest => some rest
  | _ => none

/-- What follows a definition at the start of `text`, which ends with a
line. -/
def after? : Text → Option Text
  | '[' :: text =>
      if isTaskBox text then none
      else
        match afterLabel? false labelLimit text with
        | some (':' :: rest) =>
            match afterDestination? (skipSpace rest) with
            | some titled =>
                let spaced := skipSpace titled
                let whole :=
                  if spaced.length = titled.length then none
                  else (afterTitle? spaced).bind afterLine?
                whole.or (afterLine? titled)
            | none => none
        | _ => none
  | _ => none

/-- What is left of a text after the definitions it starts with; `fuel` bounds
their number. -/
def skipAll : Nat → Text → Text
  | 0, text => text
  | fuel + 1, text =>
      match after? text with
      | some rest => skipAll fuel rest
      | none => text

/-- The lines that definitions at the start of a paragraph do not take up. -/
def dropFrom (lines : List Text) : List Text :=
  let left := skipAll lines.length (Text.join ['\n'] lines)
  if left.isEmpty then [] else
    lines.drop (lines.length - (left.count '\n' + 1))

end ComponentDocs.Markdown.LinkReference
