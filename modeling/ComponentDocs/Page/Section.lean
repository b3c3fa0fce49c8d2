import ComponentDocs.Markdown.Heading

/-!
The sections of a page: the text under a heading, a section inside a section,
and the introduction before the first subheading.
-/

namespace ComponentDocs.Page

open ComponentDocs.Markdown

/-- The piece of a text between two offsets, empty when they are reversed. -/
def slice (text : Text) (start stop : Nat) : Text :=
  (text.take stop).drop start

def isLineEnd (character : Char) : Bool :=
  character == '\n' || character == '\r'

def trimLineEnds (text : Text) : Text :=
  Text.dropEndWhile isLineEnd text

/-- Whether a heading has a name, up to ASCII case and outer blanks. -/
def isNamed (name : Text) (heading : Heading) : Bool :=
  Text.sameIgnoringCase heading.name (Text.trim name)

/-- The first heading of a name and the headings after it. -/
def headingFrom? (name : Text) : List Heading → Option (Heading × List Heading)
  | [] => none
  | heading :: rest =>
      if isNamed name heading then some (heading, rest)
      else headingFrom? name rest

/-- The offset where the section of a heading of `level` ends: the start of the
next heading of the same or a higher level, or else `stop`. -/
def sectionEnd (level stop : Nat) (following : List Heading) : Nat :=
  match following.find? (fun heading => heading.level ≤ level) with
  | some heading => heading.start
  | none => stop

/-- The text under the first heading named `name`, up to the next heading of
the same or a higher level. -/
def block? (text name : Text) : Option Text :=
  match headingFrom? name (headings text) with
  | some (heading, following) =>
      some <| trimLineEnds <|
        slice text heading.bodyStart
          (sectionEnd heading.level text.length following)
  | none => none

/-- The text of the section `inner` inside the section `outer`, empty when
either is absent. -/
def sectionText (document outer inner : Text) : Text :=
  match block? document outer with
  | some block => (block? block inner).getD []
  | none => []

/-- The text after the title and before the first subheading, if there is
any. -/
def introduction? (body : Text) : Option Text :=
  let found := headings body
  let stop :=
    match found.find? (fun heading => heading.level != 1) with
    | some heading => heading.start
    | none => body.length
  let start :=
    match (found.takeWhile (fun heading => heading.level == 1)).getLast? with
    | some heading => heading.bodyStart
    | none => 0
  let introduction := Text.trim (slice body start stop)
  if introduction.isEmpty then none else some introduction

end ComponentDocs.Page
