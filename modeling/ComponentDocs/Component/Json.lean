import ComponentDocs.Component.Basic
import ComponentDocs.Json.Record

/-!
The JSON form of components and of a corpus.

A description, a link and the like are left out when there is none, and so are
the parameters and the result of a method without signature. The lists of a
component are always written but may be left out when read.
-/

namespace ComponentDocs

open Json (Record ofFields)

/-! ## Types -/

namespace TypeForm

def simpleKind : Text := "simple".toList

def unionKind : Text := "union".toList

def literalKind : Text := "literal".toList

def keys : List Text :=
  ["kind", "value"].map String.toList

def tagged (kind : Text) (value : Json) : Json :=
  ofFields [("kind".toList, some (.text kind)), ("value".toList, some value)]

def toJson : TypeForm → Json
  | simple name => tagged simpleKind (.text name)
  | union members => tagged unionKind (.array (members.map Json.text))
  | literal content => tagged literalKind (.text content)

/-- A kind: its name, or an object with the name as only key and no value. -/
def kind? : Json → Option Text
  | .string content => content
  | .object [(key, .null)] => key
  | _ => none

def ofJson? (json : Json) : Option TypeForm := do
  let record ← Record.ofJson? keys json
  let kind ← record.required? kind? "kind".toList
  if kind = simpleKind then
    (record.required? Json.text? "value".toList).map simple
  else if kind = unionKind then
    (record.required? (Json.list? Json.text?) "value".toList).map union
  else if kind = literalKind then
    (record.required? Json.text? "value".toList).map literal
  else none

end TypeForm

namespace TypeExpression

def keys : List Text :=
  ["raw", "normalized"].map String.toList

def toJson (expression : TypeExpression) : Json :=
  ofFields [
    ("raw".toList, some (.text expression.raw)),
    ("normalized".toList, some expression.normalized.toJson)]

def ofJson? (json : Json) : Option TypeExpression := do
  let record ← Record.ofJson? keys json
  let raw ← record.required? Json.text? "raw".toList
  let normalized ← record.required? TypeForm.ofJson? "normalized".toList
  return { raw, normalized }

end TypeExpression

/-! ## Entities -/

namespace Property

def keys : List Text :=
  ["name", "description", "type", "default"].map String.toList

def toJson (property : Property) : Json :=
  ofFields [
    ("name".toList, some (.text property.name)),
    ("description".toList, property.description.map Json.text),
    ("type".toList, some property.type.toJson),
    ("default".toList, property.default.map Json.text)]

def ofJson? (json : Json) : Option Property := do
  let record ← Record.ofJson? keys json
  let name ← record.required? Json.text? "name".toList
  let description ← record.nullable? Json.text? "description".toList
  let type ← record.required? TypeExpression.ofJson? "type".toList
  let default ← record.nullable? Json.text? "default".toList
  return { name, description, type, default }

end Property

namespace Event

def keys : List Text :=
  ["name", "description", "type"].map String.toList

def toJson (event : Event) : Json :=
  ofFields [
    ("name".toList, some (.text event.name)),
    ("description".toList, event.description.map Json.text),
    ("type".toList, some event.type.toJson)]

def ofJson? (json : Json) : Option Event := do
  let record ← Record.ofJson? keys json
  let name ← record.required? Json.text? "name".toList
  let description ← record.nullable? Json.text? "description".toList
  let type ← record.required? TypeExpression.ofJson? "type".toList
  return { name, description, type }

end Event

namespace Slot

def keys : List Text :=
  ["name", "description", "type"].map String.toList

def toJson (slot : Slot) : Json :=
  ofFields [
    ("name".toList, some (.text slot.name)),
    ("description".toList, slot.description.map Json.text),
    ("type".toList, some slot.type.toJson)]

def ofJson? (json : Json) : Option Slot := do
  let record ← Record.ofJson? keys json
  let name ← record.required? Json.text? "name".toList
  let description ← record.nullable? Json.text? "description".toList
  let type ← record.required? TypeExpression.ofJson? "type".toList
  return { name, description, type }

end Slot

namespace Parameter

def keys : List Text :=
  ["name", "type"].map String.toList

def toJson (parameter : Parameter) : Json :=
  ofFields [
    ("name".toList, some (.text parameter.name)),
    ("type".toList, some parameter.type.toJson)]

def ofJson? (json : Json) : Option Parameter := do
  let record ← Record.ofJson? keys json
  let name ← record.required? Json.text? "name".toList
  let type ← record.required? TypeExpression.ofJson? "type".toList
  return { name, type }

end Parameter

namespace Method

def keys : List Text :=
  ["name", "description", "type", "parameters", "returns"].map String.toList

def writtenParameters (method : Method) : Option Json :=
  if method.signature.parameters.isEmpty then none
  else some (.array (method.signature.parameters.map Parameter.toJson))

def toJson (method : Method) : Json :=
  ofFields [
    ("name".toList, some (.text method.name)),
    ("description".toList, method.description.map Json.text),
    ("type".toList, some method.type.toJson),
    ("parameters".toList, method.writtenParameters),
    ("returns".toList, method.signature.result.map TypeExpression.toJson)]

def ofJson? (json : Json) : Option Method := do
  let record ← Record.ofJson? keys json
  let name ← record.required? Json.text? "name".toList
  let description ← record.nullable? Json.text? "description".toList
  let type ← record.required? TypeExpression.ofJson? "type".toList
  let parameters ←
    record.defaulted? [] (Json.list? Parameter.ofJson?) "parameters".toList
  let result ← record.nullable? TypeExpression.ofJson? "returns".toList
  return { name, description, type, signature := { parameters, result } }

end Method

/-! ## Components -/

namespace Component

def keys : List Text :=
  ["tagName", "description", "detailedDescription", "docUrl", "props",
    "events", "slots", "methods"].map String.toList

def fields (component : Component) : List (Text × Option Json) :=
  [("tagName".toList, some (.text component.tag)),
    ("description".toList, component.description.map Json.text),
    ("detailedDescription".toList, component.introduction.map Json.text),
    ("docUrl".toList, component.docUrl.map Json.text),
    ("props".toList, some (.array (component.props.map Property.toJson))),
    ("events".toList, some (.array (component.events.map Event.toJson))),
    ("slots".toList, some (.array (component.slots.map Slot.toJson))),
    ("methods".toList, some (.array (component.methods.map Method.toJson)))]

def toJson (component : Component) : Json :=
  ofFields component.fields

/-- The component of a record that has at least its fields. -/
def ofRecord? (record : Record) : Option Component := do
  let tag ← record.required? Json.text? "tagName".toList
  let description ← record.nullable? Json.text? "description".toList
  let introduction ←
    record.nullable? Json.text? "detailedDescription".toList
  let docUrl ← record.nullable? Json.text? "docUrl".toList
  let props ←
    record.defaulted? [] (Json.list? Property.ofJson?) "props".toList
  let events ←
    record.defaulted? [] (Json.list? Event.ofJson?) "events".toList
  let slots ← record.defaulted? [] (Json.list? Slot.ofJson?) "slots".toList
  let methods ←
    record.defaulted? [] (Json.list? Method.ofJson?) "methods".toList
  return {
    tag
    description
    introduction
    docUrl
    props
    events
    slots
    methods }

def ofJson? (json : Json) : Option Component :=
  (Record.ofJson? keys json).bind ofRecord?

end Component

def Instant.ofJson? (json : Json) : Option Instant :=
  json.text?.bind Instant.read?

namespace Corpus

def keys : List Text :=
  ["version", "generatedAt", "components"].map String.toList

def toJson (corpus : Corpus) : Json :=
  ofFields [
    ("version".toList, some (.text corpus.version)),
    ("generatedAt".toList, some (.text corpus.generatedAt.write)),
    ("components".toList,
      some (.array (corpus.components.map Component.toJson)))]

def ofJson? (json : Json) : Option Corpus := do
  let record ← Record.ofJson? keys json
  let version ← record.required? Json.text? "version".toList
  let generatedAt ← record.required? Instant.ofJson? "generatedAt".toList
  let components ←
    record.required? (Json.list? Component.ofJson?) "components".toList
  return { version, generatedAt, components }

end Corpus

end ComponentDocs
