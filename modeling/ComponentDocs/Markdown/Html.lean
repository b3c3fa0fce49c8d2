import ComponentDocs.Markdown.Line

/-!
HTML blocks: what a line must start with to open one, and what closes it.
-/

namespace ComponentDocs.Markdown

/-- The kinds of HTML block, by what closes them: a closing tag of raw text, a
fixed text, or a blank line. -/
inductive HtmlBlock
  | rawText
  | comment
  | instruction
  | declaration
  | characterData
  | blockTag
  | anyTag
deriving DecidableEq, Repr

namespace HtmlBlock

def rawTextTags : List Text :=
  ["script", "pre", "style"].map String.toList

/-- The tags that open a block up to the next blank line. -/
def blockTags : List Text :=
  ["address", "article", "aside", "base", "basefont", "blockquote", "body",
    "caption", "center", "col", "colgroup", "dd", "details", "dialog", "dir",
    "div", "dl", "dt", "fieldset", "figcaption", "figure", "footer", "form",
    "frame", "frameset", "head", "header", "hr", "html", "iframe", "legend",
    "li", "link", "main", "menu", "menuitem", "nav", "noframes", "ol",
    "optgroup", "option", "p", "param", "section", "source", "summary",
    "table", "tbody", "td", "tfoot", "th", "thead", "title", "tr", "track",
    "ul"].map String.toList

def isTagNameRest (character : Char) : Bool :=
  character.isAlphanum || character == '-'

/-- A tag name in lower case and what follows it. -/
def tagName? : Text → Option (Text × Text)
  | [] => none
  | first :: rest =>
      if first.isAlpha then
        some ((first :: rest.takeWhile isTagNameRest).map Char.toLower,
          rest.dropWhile isTagNameRest)
      else none

/-! ## Whole tags -/

def isAttributeStart (character : Char) : Bool :=
  character.isAlpha || character == '_' || character == ':'

def isAttributeRest (character : Char) : Bool :=
  character.isAlphanum || character == '_' || character == '.' ||
    character == ':' || character == '-'

def isUnquoted (character : Char) : Bool :=
  !isIndent character && character != '"' && character != '\'' &&
    character != '=' && character != '<' && character != '>' &&
    character != '\x60'

def afterValue? : Text → Option Text
  | '"' :: rest =>
      match rest.dropWhile (· != '"') with
      | [] => none
      | _ :: after => some after
  | '\'' :: rest =>
      match rest.dropWhile (· != '\'') with
      | [] => none
      | _ :: after => some after
  | first :: rest =>
      if isUnquoted first then some (rest.dropWhile isUnquoted) else none
  | [] => none

/-- What follows the attributes and the end of an opening tag whose name has
been read. Each attribute takes at least two characters, so `fuel` characters
suffice for `fuel` of them. -/
def afterAttributes? : Nat → Text → Option Text
  | 0, _ => none
  | fuel + 1, text =>
      match text.dropWhile isIndent with
      | '>' :: after => some after
      | '/' :: '>' :: after => some after
      | first :: rest =>
          if isAttributeStart first && text.head?.any isIndent then
            let named := rest.dropWhile isAttributeRest
            match named.dropWhile isIndent with
            | '=' :: value =>
                match afterValue? (value.dropWhile isIndent) with
                | some after => afterAttributes? fuel after
                | none => none
            | _ => afterAttributes? fuel named
          else none
      | [] => none

/-- What follows a whole opening or closing tag whose `<` has been read. -/
def afterTag? : Text → Option Text
  | '/' :: rest =>
      match tagName? rest with
      | some (_, after) =>
          match after.dropWhile isIndent with
          | '>' :: trailing => some trailing
          | _ => none
      | none => none
  | rest =>
      match tagName? rest with
      | some (_, after) => afterAttributes? (after.length + 1) after
      | none => none

/-! ## Opening -/

/-- Whether the end of a tag's name is well marked. -/
def endsName : Text → Bool
  | [] => true
  | character :: _ => character == '>' || isIndent character

/-- Whether the end of a block tag's name is well marked, which the end of an
empty tag does too. -/
def endsBlockName : Text → Bool
  | '/' :: '>' :: _ => true
  | text => endsName text

/-- The block that a tag opens whose `<` has been read, and what follows the
name of the tag. -/
def ofTag? : Text → Option (HtmlBlock × Text)
  | '/' :: rest =>
      match tagName? rest with
      | some (name, after) =>
          if blockTags.contains name && endsBlockName after then
            some (.blockTag, after)
          else none
      | none => none
  | rest =>
      match tagName? rest with
      | some (name, after) =>
          if rawTextTags.contains name && endsName after then
            some (.rawText, after)
          else if blockTags.contains name && endsBlockName after then
            some (.blockTag, after)
          else none
      | none => none

/-- Past an exclamation mark that opens neither a comment nor a declaration: a
tag may follow it. -/
def skipExclamation : Text → Text
  | '!' :: '-' :: rest => rest
  | '!' :: rest => rest
  | rest => rest

/-- The block that the visible part of a line opens, when it opens one that
may stand in the middle of a paragraph, and what follows its opening. -/
def ofStart? : Text → Option (HtmlBlock × Text)
  | '<' :: '!' :: '-' :: '-' :: rest => some (.comment, rest)
  | '<' :: '?' :: rest => some (.instruction, rest)
  | '<' :: '!' :: '[' :: 'C' :: 'D' :: 'A' :: 'T' :: 'A' :: '[' :: rest =>
      some (.characterData, rest)
  | '<' :: '!' :: letter :: rest =>
      if letter.isUpper then some (.declaration, rest)
      else ofTag? (skipExclamation ('!' :: letter :: rest))
  | '<' :: rest => ofTag? rest
  | _ => none

/-- Whether the visible part of a line is one whole tag and blanks. -/
def isLoneTag : Text → Bool
  | '<' :: rest =>
      match afterTag? (skipExclamation rest) with
      | some after => after.all isIndent
      | none => false
  | _ => false

/-! ## Closing -/

/-- Whether the closing tag of a raw text tag is in a text. -/
def closesRawText : Text → Bool
  | [] => false
  | '<' :: '/' :: rest =>
      (tagName? rest).any (fun (name, after) =>
        rawTextTags.contains name && endsName after) ||
        closesRawText rest
  | _ :: rest => closesRawText rest

/-- Whether a line, or what follows the opening of a block, closes the block.
Nothing in a line closes the last two kinds. -/
def isClosedBy (line : Text) : HtmlBlock → Bool
  | .rawText => closesRawText line
  | .comment => Text.hasPiece "-->".toList line
  | .instruction => Text.hasPiece "?>".toList line
  | .declaration => Text.hasPiece ">".toList line
  | .characterData => Text.hasPiece "]]>".toList line
  | .blockTag | .anyTag => false

def endsAtBlank : HtmlBlock → Bool
  | .blockTag | .anyTag => true
  | _ => false

end HtmlBlock

end ComponentDocs.Markdown
