import ComponentDocs.TypeExpression.Basic

/-!
The rules that bring a type expression to its normal form. The first rule that
applies decides, so later rules see only what the earlier ones leave alone.

Expressions use brackets `^[string]`, brackets that mark the code span after
them (`^[Function]`, `^[object]`, `^[enum]`), bare code spans, and
alternatives between `|` or `/`, where a backslash makes a pipe a character
like any other.
-/

namespace ComponentDocs.TypeExpression

/-! ## Pieces of an expression -/

/-- The mark around code spans. -/
def tick : Char := '\x60'

/-- The private-use character that stands for an escaped pipe while
alternatives are split. -/
def pipeStand : Char := '\ue001'

/-- Whether a text has a pipe with no backslash before it. -/
def hasOpenPipe (text : Text) : Bool :=
  (Text.dropEscapedPipes text).contains '|'

/-- The alternatives between open pipes, trimmed and unescaped. -/
def splitAlternatives (text : Text) : List Text :=
  ((Text.hidePipes pipeStand text).splitOn '|').map fun member =>
    Text.showPipes pipeStand ['|'] (Text.trim member)

def extendFirst (character : Char) : List Text → List Text
  | [] => [[character]]
  | piece :: pieces => (character :: piece) :: pieces

/-- The pieces between the `delimiter` characters outside code spans;
`inSpan` tells whether the text starts inside one. -/
def splitOutsideSpans (delimiter : Char) (inSpan : Bool) : Text → List Text
  | [] => [[]]
  | character :: rest =>
      if character == tick then
        extendFirst character (splitOutsideSpans delimiter (!inSpan) rest)
      else if character == delimiter && !inSpan then
        [] :: splitOutsideSpans delimiter inSpan rest
      else extendFirst character (splitOutsideSpans delimiter inSpan rest)

/-- The pieces between slashes outside code spans. -/
def slashPieces (text : Text) : List Text :=
  splitOutsideSpans '/' false text

/-- What follows the bracket `^[name]` at the start of a text, in any ASCII
case. -/
def afterMarker? (name : Text) (text : Text) : Option Text :=
  let marker := ['^', '['] ++ name ++ [']']
  if (text.take marker.length).map Char.toLower == marker then
    some (text.drop marker.length)
  else none

/-- The content of the code span at the start of a text. -/
def spanAtStart? : Text → Option Text
  | [] => none
  | first :: rest =>
      if first == tick && rest.contains tick then
        some (rest.takeWhile (· != tick))
      else none

def bracketAtStart? : Text → Option Text
  | '^' :: '[' :: rest =>
      if rest.contains ']' then some (rest.takeWhile (· != ']')) else none
  | _ => none

/-- The first result that `find?` has at some place of a text. -/
def firstAt? (find? : Text → Option Text) : Text → Option Text
  | [] => find? []
  | character :: rest =>
      (find? (character :: rest)).or (firstAt? find? rest)

/-- The content of the first code span that the bracket `^[name]` marks. -/
def markedSpan? (name : Text) (text : Text) : Option Text :=
  firstAt? (fun place =>
    (afterMarker? name place).bind fun after =>
      spanAtStart? (Text.trimStart after)) text

def span? (text : Text) : Option Text :=
  firstAt? spanAtStart? text

def bracket? (text : Text) : Option Text :=
  firstAt? bracketAtStart? text

def functionMarker : Text := "function".toList

def objectMarker : Text := "object".toList

def enumMarker : Text := "enum".toList

/-- Whether a text has a bracket that marks code spans. -/
def hasMarker (text : Text) : Bool :=
  (firstAt? (fun place =>
    ((afterMarker? functionMarker place).or
      (afterMarker? objectMarker place)).or
        (afterMarker? enumMarker place)) text).isSome

/-- Whether the opening parenthesis counted in `depth` closes before the last
character. -/
def closesEarly (depth : Nat) : Text → Bool
  | [] => false
  | [_] => false
  | '(' :: rest => closesEarly (depth + 1) rest
  | ')' :: rest => depth - 1 == 0 || closesEarly (depth - 1) rest
  | _ :: rest => closesEarly depth rest

/-- The text without the pair of parentheses around all of it. -/
def stripParentheses (text : Text) : Text :=
  if text.head? == some '(' && text.getLast? == some ')' &&
      !closesEarly 0 text then
    Text.trim text.tail.dropLast
  else text

/-! ## Rules -/

/-- A rule: whether it applies to a trimmed expression, and the form it
gives. -/
structure Rule where
  name : Text
  applies : Text → Bool
  form : Text → TypeForm

/-- Alternatives when there are open pipes, and else one name. -/
def formOfContent (text : Text) : TypeForm :=
  if hasOpenPipe text then .union (splitAlternatives text)
  else .simple (Text.trim (Text.unescapePipes text))

/-- A name without a bracket around it. -/
def plainForm (text : Text) : TypeForm :=
  let stripped :=
    match text with
    | '^' :: '[' :: rest => Text.dropOneEnd ']' rest
    | _ => text
  .simple (Text.trim stripped)

def functionRule : Rule where
  name := "function".toList
  applies text := (markedSpan? functionMarker text).isSome
  form text :=
    let signature := (markedSpan? functionMarker text).getD text
    .literal (stripParentheses (Text.trim (Text.unescapePipes signature)))

def objectRule : Rule where
  name := "object".toList
  applies text := (markedSpan? objectMarker text).isSome
  form text := .literal ((markedSpan? objectMarker text).getD text)

def enumRule : Rule where
  name := "enum".toList
  applies text := (markedSpan? enumMarker text).isSome
  form text :=
    .literal (Text.unescapePipes ((markedSpan? enumMarker text).getD text))

def bracketRule : Rule where
  name := "custom-bracket".toList
  applies text := (bracket? text).isSome
  form text := formOfContent ((bracket? text).getD text)

def spanRule : Rule where
  name := "code-span".toList
  applies text := (span? text).isSome && !hasMarker text
  form text := formOfContent ((span? text).getD text)

def openPipeRule : Rule where
  name := "pipe-union".toList
  applies := hasOpenPipe
  form text := .union (splitAlternatives text)

def escapedPipeRule : Rule where
  name := "escaped-pipe".toList
  applies := Text.hasPiece Text.escapedPipe
  form text := .simple (Text.trim (Text.unescapePipes text))

def plainRule : Rule where
  name := "plain".toList
  applies _ := true
  form := plainForm

/-- The rules for a text without slashes outside code spans. -/
def pieceRules : List Rule :=
  [functionRule, objectRule, enumRule, bracketRule, spanRule, openPipeRule,
    escapedPipeRule, plainRule]

/-- The first of `rules` that applies to a text; the plain rule when none
does. -/
def firstRule (rules : List Rule) (text : Text) : Rule :=
  (rules.find? (fun rule => rule.applies text)).getD plainRule

/-- The form of a text without slashes outside code spans. -/
def pieceForm (text : Text) : TypeForm :=
  (firstRule pieceRules text).form text

/-- The pieces between slashes that are not blank, trimmed. -/
def slashAlternatives (text : Text) : List Text :=
  ((slashPieces text).map Text.trim).filter (!·.isEmpty)

/-- The alternatives of all pieces between slashes; a single one stands for
itself. No piece has a slash of its own. -/
def slashForm (text : Text) : TypeForm :=
  match (slashAlternatives text).flatMap
      (fun piece => (pieceForm piece).members) with
  | [member] => .simple member
  | members => .union members

def slashRule : Rule where
  name := "slash-alternatives".toList
  applies text := 1 < (slashPieces text).length
  form := slashForm

def rules : List Rule :=
  slashRule :: pieceRules

/-- The first rule that applies to the trimmed expression. -/
def matchingRule (raw : Text) : Rule :=
  firstRule rules (Text.trim raw)

def normalForm (raw : Text) : TypeForm :=
  (matchingRule raw).form (Text.trim raw)

def ofText (raw : Text) : TypeExpression :=
  ⟨raw, normalForm raw⟩

end ComponentDocs.TypeExpression
