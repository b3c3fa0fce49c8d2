import ComponentDocs.Markdown.Html
import ComponentDocs.Markdown.LinkReference
import ComponentDocs.Markdown.Marker

/-!
The block structure of a Markdown text, line by line: which containers and
which leaf block are open, and which lines are headings.

A line first continues the open containers it can, then opens new ones, and
what is left of it belongs to a leaf block. A line of text continues a
paragraph even where it fails to continue the containers around it; it is a row
of a table only where it continues all of them.
-/

namespace ComponentDocs.Markdown

/-- A block that holds blocks. A list item is continued by lines indented by at
least its `width`; an item that has no content yet ends at a blank line. -/
inductive Container
  | quote
  | item (width : Nat) (hasContent : Bool)
deriving DecidableEq, Repr

/-- A line of a paragraph: the offset of its first visible character and its
text from there on. -/
structure ParagraphLine where
  offset : Nat
  content : Text
deriving DecidableEq, Repr

/-- The open block that holds lines. -/
inductive Leaf
  | none
  | paragraph (lines : List ParagraphLine)
  | fencedCode (mark : Char) (length : Nat)
  | indentedCode
  | html (block : HtmlBlock)
  | table
deriving DecidableEq, Repr

/-- The blocks that are open between two lines, outermost container first. -/
structure OpenBlocks where
  containers : List Container
  leaf : Leaf
deriving DecidableEq, Repr

/-- Where a heading stands: the offset of its first character, of its text, of
the end of its text, and of the end of its last line. -/
structure HeadingSpan where
  level : Nat
  start : Nat
  textStart : Nat
  textEnd : Nat
  finish : Nat
deriving DecidableEq, Repr

namespace Container

/-- Past the mark of a block quote, with one column of space after it. -/
def afterQuoteMark (cursor : Cursor) : Cursor :=
  (cursor.skipIndent.dropMarker 1).dropColumns 1

/-- Whether a line goes on with a block quote mark. -/
def startsQuote (cursor : Cursor) : Bool :=
  cursor.indent < 4 && cursor.visible.head? = some '>'

/-- What is left of a line that continues the container, and the container
after it. -/
def continue? (cursor : Cursor) : Container → Option (Container × Cursor)
  | quote =>
      if startsQuote cursor then some (quote, afterQuoteMark cursor) else none
  | item width hasContent =>
      if cursor.isBlank then
        if hasContent then some (item width true, cursor.skipIndent) else none
      else if width ≤ cursor.indent then
        some (item width true, cursor.dropColumns width)
      else none

/-- The containers that a line continues, outermost first, whether these are
all of them, and what is left of the line. -/
def continueAll (cursor : Cursor) :
    List Container → List Container × Bool × Cursor
  | [] => ([], true, cursor)
  | container :: inner =>
      match container.continue? cursor with
      | some (continued, rest) =>
          let (continuedInner, all, left) := continueAll rest inner
          (continued :: continuedInner, all, left)
      | .none => ([], false, cursor)

/-- The list item that a marker of `marker` characters opens, and what is left
of the line. The item's text starts at the first visible character after the
marker, or one column after the marker when that is too far away or missing. -/
def openItem (cursor : Cursor) (marker : Nat) : Container × Cursor :=
  let after := cursor.skipIndent.dropMarker marker
  let gap := after.indent
  if after.isBlank then
    (item (cursor.indent + marker + 1) false, after.skipIndent)
  else if 5 ≤ gap then
    (item (cursor.indent + marker + 1) true, after.dropColumns 1)
  else
    (item (cursor.indent + marker + gap) true, after.dropColumns gap)

end Container

/-! ## Paragraphs -/

/-- The offset in the text of the visible part of what is left of a line. -/
def visibleOffset (line : Line) (cursor : Cursor) : Nat :=
  line.contentEnd - cursor.visible.length

/-- A line's visible part as a line of a paragraph. -/
def paragraphLine (line : Line) (cursor : Cursor) : ParagraphLine :=
  ⟨visibleOffset line cursor, cursor.visible⟩

/-- The lines of a paragraph that link reference definitions leave over. -/
def withoutDefinitions (lines : List ParagraphLine) : List ParagraphLine :=
  let kept := LinkReference.dropFrom (lines.map ParagraphLine.content)
  lines.drop (lines.length - kept.length)

def underlined? (level : Nat) (lines : List ParagraphLine) (line : Line) :
    Option HeadingSpan :=
  let kept := withoutDefinitions lines
  match kept.head?, kept.getLast? with
  | some first, some last =>
      some ⟨level, first.offset, first.offset,
        last.offset + last.content.length, line.finish⟩
  | _, _ => none

/-- Whether a line is the delimiter row below a paragraph's last line. -/
def delimitsTable (lines : List ParagraphLine) (visible : Text) : Bool :=
  match lines.getLast?.bind fun last => Marker.headerCells? last.content with
  | some count => Marker.isDelimiterRow count visible
  | none => false

/-! ## New blocks -/

/-- What a line of text may continue: nothing, a paragraph in containers that
the line does not continue, or else a paragraph or a table. -/
inductive Above
  | nothing
  | outerParagraph
  | paragraph (lines : List ParagraphLine)
  | table
deriving DecidableEq, Repr

namespace Above

def takesText : Above → Bool
  | nothing => false
  | _ => true

/-- Whether a line of text continues a block in its own containers. -/
def isInner : Above → Bool
  | paragraph _ => true
  | table => true
  | _ => false

/-- The lines of a paragraph in the line's own containers. -/
def lines? : Above → Option (List ParagraphLine)
  | paragraph lines => some lines
  | _ => none

end Above

/-- What a line holds once its containers are known. -/
inductive LineContent
  | heading (span : HeadingSpan)
  | leaf (leaf : Leaf)
  | text (cursor : Cursor)
deriving Repr

/-- The heading that a line's visible part marks with hashes. On a last line
without end the hashes alone mark none. -/
def hashHeading? (line : Line) (cursor : Cursor) : Option HeadingSpan :=
  match Marker.hashes? cursor.visible with
  | some (level, rest) =>
      let content := rest.dropWhile isIndent
      if content.isEmpty && !line.isEnded then none
      else
        some ⟨level, visibleOffset line cursor,
          line.contentEnd - content.length, line.contentEnd, line.finish⟩
  | none => none

/-- The leaf block that a line's visible part opens. A lone tag opens none
where the line continues something. -/
def openLeaf? (above : Above) (cursor : Cursor) : Option Leaf :=
  let visible := cursor.visible
  if cursor.indent < 4 then
    match Marker.fence? visible with
    | some (mark, length) => some (.fencedCode mark length)
    | none =>
        match HtmlBlock.ofStart? visible with
        | some (block, rest) =>
            some (if block.isClosedBy rest then .none else .html block)
        | none =>
            if !above.takesText && HtmlBlock.isLoneTag visible then
              some (.html .anyTag)
            else none
  else none

/-- The heading that a line makes of the paragraph above it. On a last line
without end no underline counts. -/
def underlineOf? (line : Line) (above : Above) (visible : Text) :
    Option HeadingSpan :=
  match above.lines?, Marker.underline? visible with
  | some lines, some level =>
      if line.isEnded then underlined? level lines line else none
  | _, _ => none

/-- Open the blocks that a line starts. What is `above` the line ends when a
container opens; `fuel` bounds the containers that one line opens. -/
def openBlocks (line : Line) :
    Nat → Above → Cursor → List Container × LineContent
  | 0, _, cursor => ([], .text cursor)
  | fuel + 1, above, cursor =>
      let visible := cursor.visible
      if cursor.isBlank then ([], .text cursor)
      else if 4 ≤ cursor.indent then
        if above.takesText then ([], .text cursor)
        else ([], .leaf .indentedCode)
      else if Container.startsQuote cursor then
        let (opened, content) := openBlocks line fuel .nothing
          (Container.afterQuoteMark cursor)
        (.quote :: opened, content)
      else
        match hashHeading? line cursor with
        | some span => ([], .heading span)
        | none =>
            match openLeaf? above cursor with
            | some leaf => ([], .leaf leaf)
            | none =>
                match underlineOf? line above visible with
                | some span => ([], .heading span)
                | none =>
                    if Marker.isRule visible then ([], .leaf .none)
                    else
                      match Marker.listMarker? above.isInner visible with
                      | some marker =>
                          let (item, rest) := Container.openItem cursor marker
                          let (opened, content) :=
                            openBlocks line fuel .nothing rest
                          (item :: opened, content)
                      | none =>
                          if above.lines?.any (delimitsTable · visible) then
                            ([], .leaf .table)
                          else ([], .text cursor)

/-! ## One line -/

/-- Whether what is left of a line continues the leaf block, and the leaf
block after it; `none` when new blocks must be looked for. -/
def Leaf.continue? (cursor : Cursor) : Leaf → Option Leaf
  | fencedCode mark length =>
      if cursor.indent < 4 &&
          Marker.closesFence mark length cursor.visible then some .none
      else some (fencedCode mark length)
  | html block =>
      if cursor.isBlank && block.endsAtBlank then some .none
      else if block.isClosedBy cursor.rest then some .none
      else some (html block)
  | indentedCode =>
      if cursor.isBlank || 4 ≤ cursor.indent then some indentedCode else .none
  | _ => .none

/-- Whether a line's visible part underlines what may be above it. -/
def isUnderline (cursor : Cursor) : Bool :=
  cursor.indent < 4 && (Marker.underline? cursor.visible).isSome

/-- What a line may continue that continues all containers of a leaf block or
not. A table ends where a paragraph would be underlined. -/
def Leaf.above (all : Bool) (cursor : Cursor) : Leaf → Above
  | paragraph lines => if all then .paragraph lines else .outerParagraph
  | table => if all && !isUnderline cursor then .table else .nothing
  | _ => .nothing

namespace OpenBlocks

/-- Nothing but the text itself is open. -/
def initial : OpenBlocks :=
  ⟨[], .none⟩

/-- The blocks after a line of text that opens no block and continues the
containers `continued`. -/
def addText (blocks : OpenBlocks) (continued : List Container) (above : Above)
    (added : ParagraphLine) (cursor : Cursor) : OpenBlocks :=
  match blocks.leaf, above with
  | .paragraph lines, .paragraph _ =>
      let kept :=
        if isUnderline cursor then withoutDefinitions lines else lines
      ⟨continued, .paragraph (kept ++ [added])⟩
  | .paragraph lines, _ =>
      ⟨blocks.containers, .paragraph (lines ++ [added])⟩
  | _, .table => ⟨continued, .table⟩
  | _, _ => ⟨continued, .paragraph [added]⟩

/-- The blocks after a line that continues `continued`, all containers or not,
and from which `cursor` is left. -/
def openNew (blocks : OpenBlocks) (line : Line)
    (continued : List Container) (all : Bool) (cursor : Cursor) :
    OpenBlocks × Option HeadingSpan :=
  let above := blocks.leaf.above all cursor
  let (opened, content) :=
    openBlocks line (cursor.rest.length + 1) above cursor
  match content with
  | .heading span => (⟨continued ++ opened, .none⟩, some span)
  | .leaf leaf => (⟨continued ++ opened, leaf⟩, none)
  | .text left =>
      if left.isBlank then (⟨continued ++ opened, .none⟩, none)
      else if opened.isEmpty then
        (blocks.addText continued above (paragraphLine line left) left, none)
      else
        (⟨continued ++ opened, .paragraph [paragraphLine line left]⟩, none)

/-- The blocks after a line, and the heading that the line completes. -/
def next (blocks : OpenBlocks) (line : Line) :
    OpenBlocks × Option HeadingSpan :=
  let (continued, all, cursor) :=
    Container.continueAll (Cursor.ofLine line) blocks.containers
  match if all then blocks.leaf.continue? cursor else none with
  | some leaf => (⟨continued, leaf⟩, none)
  | none => blocks.openNew line continued all cursor

end OpenBlocks

end ComponentDocs.Markdown
