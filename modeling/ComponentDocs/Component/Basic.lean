import ComponentDocs.TypeExpression.Signature
import ComponentDocs.Instant

/-!
The metadata of documented components, and the corpus of all of them.
-/

namespace ComponentDocs

/-- A documented property; its default value has lost one layer of quotes. -/
structure Property where
  name : Text
  description : Option Text
  type : TypeExpression
  default : Option Text
deriving DecidableEq, Repr

/-- A documented event, with the type of its callback. -/
structure Event where
  name : Text
  description : Option Text
  type : TypeExpression
deriving DecidableEq, Repr

/-- A documented slot, with the type of what it passes on. -/
structure Slot where
  name : Text
  description : Option Text
  type : TypeExpression
deriving DecidableEq, Repr

/-- A documented method, with what its type tells of its signature. -/
structure Method where
  name : Text
  description : Option Text
  type : TypeExpression
  signature : Signature
deriving DecidableEq, Repr

/-- The metadata of one component. -/
structure Component where
  tag : Text
  description : Option Text
  introduction : Option Text
  docUrl : Option Text
  props : List Property
  events : List Event
  slots : List Slot
  methods : List Method
deriving DecidableEq, Repr

def Component.ofTag (tag : Text) : Component :=
  { tag
    description := none
    introduction := none
    docUrl := none
    props := []
    events := []
    slots := []
    methods := [] }

/-- The components of a library at one version. -/
structure Corpus where
  version : Text
  generatedAt : Instant
  components : List Component
deriving DecidableEq, Repr

namespace Corpus

def find? (corpus : Corpus) (tag : Text) : Option Component :=
  corpus.components.find? (fun component => component.tag = tag)

def tags (corpus : Corpus) : List Text :=
  (corpus.components.map Component.tag).mergeSort Text.atMost

end Corpus

end ComponentDocs
