import ComponentDocs.Component.Basic
import ComponentDocs.Component.DefaultValue

/-!
The document that lets editors complete tags, attributes, events and slots.
-/

namespace ComponentDocs.Editor

/-- What a value of an attribute is. -/
structure AttributeValue where
  kind : Text
  type : Text
deriving DecidableEq, Repr

/-- An attribute of a tag. -/
structure Attribute where
  name : Text
  description : Option Text
  default : Option DefaultValue
  value : AttributeValue
deriving DecidableEq, Repr

/-- An event or a slot. -/
structure Named where
  name : Text
  description : Option Text
deriving DecidableEq, Repr

/-- A tag. -/
structure Element where
  name : Text
  description : Option Text
  docUrl : Option Text
  attributes : List Attribute
  events : List Named
  slots : List Named
deriving DecidableEq, Repr

/-- The tags of a document. -/
structure HtmlContributions where
  elements : List Element
deriving DecidableEq, Repr

/-- All that a document contributes. -/
structure Contributions where
  html : HtmlContributions
deriving DecidableEq, Repr

/-- A document for the package `name`. -/
structure WebTypes where
  schema : Text
  framework : Text
  name : Text
  version : Text
  typesSyntax : Text
  descriptionMarkup : Text
  contributions : Contributions
deriving DecidableEq, Repr

/-- The text of a type; one without a name is `any`. -/
def typeText (type : TypeExpression) : Text :=
  match type.normalized with
  | .simple [] => "any".toList
  | _ => type.display

def Attribute.ofProperty (property : Property) : Attribute where
  name := property.name
  description := property.description
  default :=
    property.default.map fun value => DefaultValue.ofText value property.type
  value := ⟨"expression".toList, typeText property.type⟩

def Element.ofComponent (component : Component) : Element where
  name := component.tag
  description := component.description
  docUrl := component.docUrl
  attributes := component.props.map Attribute.ofProperty
  events := component.events.map fun event => ⟨event.name, event.description⟩
  slots := component.slots.map fun slot => ⟨slot.name, slot.description⟩

namespace WebTypes

def schemaAddress : Text := "http://json.schemastore.org/web-types".toList

/-- The tags of a corpus by name; components of one name keep their order. -/
def elements (corpus : Corpus) : List Element :=
  (corpus.components.map Element.ofComponent).mergeSort fun left right =>
    Text.atMost left.name right.name

def ofCorpus (corpus : Corpus) (library : Text) : WebTypes where
  schema := schemaAddress
  framework := "vue".toList
  name := library
  version := corpus.version
  typesSyntax := "typescript".toList
  descriptionMarkup := "markdown".toList
  contributions := ⟨⟨elements corpus⟩⟩

end WebTypes

end ComponentDocs.Editor
