import ComponentDocs.Component.Basic
import ComponentDocs.Failure
import ComponentDocs.Text.Case

/-!
The answers to questions about a corpus: the listing of all components, a
search, the detail of one component and its examples.
-/

namespace ComponentDocs.Query

/-- A component in one line. -/
structure Summary where
  tag : Text
  description : Option Text
  docUrl : Option Text
deriving DecidableEq, Repr

/-- All components, ascending by tag. -/
structure Listing where
  total : Nat
  components : List Summary
deriving DecidableEq, Repr

/-- What to search for, and how many results to give at most. -/
structure SearchRequest where
  keyword : Text
  limit : Option Nat
deriving DecidableEq, Repr

/-- The matches of a keyword, ascending by tag; `total` counts also those
beyond the limit. -/
structure SearchResult where
  keyword : Text
  total : Nat
  results : List Summary
deriving DecidableEq, Repr

/-- All that is known of a component. -/
structure Detail where
  component : Component
  typeDefinition : Option Text
deriving DecidableEq, Repr

/-- The examples of a component, or a placeholder. -/
structure Examples where
  tag : Text
  content : Text
  found : Bool
deriving DecidableEq, Repr

def Summary.ofComponent (component : Component) : Summary :=
  ⟨component.tag, component.description, component.docUrl⟩

/-- The lines of components in ascending order of their tags; those of one tag
keep their order. -/
def summaries (components : List Component) : List Summary :=
  (components.map Summary.ofComponent).mergeSort fun left right =>
    Text.atMost left.tag right.tag

def Listing.ofCorpus (corpus : Corpus) : Listing :=
  ⟨corpus.components.length, summaries corpus.components⟩

/-! ## Search -/

/-- A keyword as it is matched: trimmed and in lower case. -/
def needle (keyword : Text) : Text :=
  Text.lowercase (Text.trim keyword)

def mentions (piece text : Text) : Bool :=
  Text.hasPiece piece (Text.lowercase text)

/-- Whether the tag or the description of a component mentions a piece. -/
def isMatch (piece : Text) (component : Component) : Bool :=
  mentions piece component.tag ||
    component.description.any (mentions piece)

def SearchResult.ofCorpus (corpus : Corpus) (piece : Text)
    (limit : Option Nat) : SearchResult :=
  let found := summaries (corpus.components.filter (isMatch piece))
  let kept :=
    match limit with
    | some count => found.take count
    | none => found
  ⟨piece, found.length, kept⟩

/-! ## One component -/

def noComponent (corpus : Corpus) (tag : Text) : Failure :=
  .notFound <|
    "component '".toList ++ tag ++ "' not found; available: ".toList ++
      Text.join ", ".toList corpus.tags

def Examples.placeholder (tag : Text) : Examples :=
  ⟨tag, "No examples found for ".toList ++ tag, false⟩

def Examples.ofContent (tag : Text) : Option Text → Examples
  | some content => ⟨tag, content, true⟩
  | none => .placeholder tag

end ComponentDocs.Query
