import ComponentDocs.Markdown.Block

/-!
The headings of a Markdown text, in order, with their levels, names and places.
Code, HTML and metadata never hold a heading.
-/

namespace ComponentDocs.Markdown

/-- A heading: its level, its name, the offset of the line it starts on, and
the offset of the first line after it. -/
structure Heading where
  level : Nat
  name : Text
  start : Nat
  bodyStart : Nat
deriving DecidableEq, Repr

/-! ## Metadata -/

/-- Whether a line is three `mark` characters and spaces, with a line end. -/
def isMetadataMark (mark : Char) (content : Text) (line : Line) : Bool :=
  Marker.run mark content == 3 && Marker.isSpaced (content.drop 3) &&
    line.isEnded

/-- The lines after the first one that closes a metadata block. -/
def afterMetadata? (mark : Char) : List Line → Option (List Line)
  | [] => none
  | line :: rest =>
      if isMetadataMark mark line.content line then some rest
      else afterMetadata? mark rest

/-- The character that marks the metadata block which a line opens. -/
def metadataMark? (line : Line) : Option Char :=
  let cursor := Cursor.ofLine line
  if 4 ≤ cursor.indent then none
  else ['-', '+'].find? fun mark => isMetadataMark mark cursor.visible line

/-- The lines after the metadata block that a text may start with. -/
def withoutMetadata : List Line → List Line
  | [] => []
  | line :: rest =>
      ((metadataMark? line).bind (afterMetadata? · rest)).getD (line :: rest)

/-! ## Scanning -/

/-- Whether marks or indentation by which a line continues containers stand
before the rest of it. -/
def continuesWithMarks (containers : List Container) (line : Line) : Bool :=
  let (_, _, cursor) := Container.continueAll (Cursor.ofLine line) containers
  cursor.column != 0

/-- A heading in containers that the next line continues takes their marks and
indentation on that line with it. -/
def takeMarks (containers : List Container) (next : Option Line)
    (span : HeadingSpan) : HeadingSpan :=
  match next with
  | some line =>
      if continuesWithMarks containers line then
        { span with finish := line.start + 1 }
      else span
  | none => span

/-- The headings of the lines after `blocks` have been opened. -/
def headingSpans (blocks : OpenBlocks) : List Line → List HeadingSpan
  | [] => []
  | line :: rest =>
      let (following, heading) := blocks.next line
      match heading with
      | some span =>
          takeMarks following.containers rest.head? span ::
            headingSpans following rest
      | none => headingSpans following rest

/-! ## Names and places -/

def lineStart (text : Text) (offset : Nat) : Nat :=
  offset -
    ((text.take offset).reverse.takeWhile (· != '\n')).length

/-- The offset itself when a line starts there, and else the start of the next
line, or the end of the text when there is none. -/
def nextLineStart (text : Text) (offset : Nat) : Nat :=
  if offset = 0 || text[offset - 1]? = some '\n' then offset
  else
    let rest := text.drop offset
    let left := (rest.takeWhile (· != '\n')).length
    if left = rest.length then text.length else offset + left + 1

/-- The name of a heading's text: without an anchor `{#…}` at its end, and
without closing hashes. -/
def headingName (raw : Text) : Text :=
  let trimmed := Text.trim raw
  Text.trimEnd (Text.dropEndWhile (· == '#') (withoutAnchor trimmed))
where
  /-- The text before the last `{#`, when the text ends with `}`. -/
  withoutAnchor (text : Text) : Text :=
    if text.getLast? = some '\x7d' then
      match beforeAnchor? text.dropLast.reverse with
      | some kept => Text.trimEnd kept.reverse
      | none => text
    else text
  /-- In a reversed text, what stands before the last anchor mark. -/
  beforeAnchor? : Text → Option Text
    | '#' :: '\x7b' :: rest => some rest
    | _ :: rest => beforeAnchor? rest
    | [] => none

def HeadingSpan.heading (text : Text) (span : HeadingSpan) : Heading :=
  { level := span.level
    name := headingName
      ((text.take span.textEnd).drop span.textStart)
    start := lineStart text span.start
    bodyStart := nextLineStart text span.finish }

/-- The lines of a text whose block structure counts: a byte order mark at the
start and a metadata block are left away. -/
def blockLines (text : Text) : List Line :=
  withoutMetadata <|
    match text with
    | '\ufeff' :: rest => Line.cut 1 [] rest
    | _ => Line.cut 0 [] text

def headings (text : Text) : List Heading :=
  (headingSpans .initial (blockLines text)).map (HeadingSpan.heading text)

end ComponentDocs.Markdown
