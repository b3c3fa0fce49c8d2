import ComponentDocs.Editor.WebTypes
import ComponentDocs.Json.Record

/-!
The JSON form of the document for editors. A number without decimal text, such
as infinity, is written as `null`.
-/

namespace ComponentDocs

open Json (Record ofFields)

namespace DefaultValue

def toJson : DefaultValue → Json
  | bool value => .bool value
  | number value =>
      match value.write? with
      | some literal => .number literal
      | none => .null
  | text content => .text content

def ofJson? : Json → Option DefaultValue
  | .bool value => some (bool value)
  | .number literal => (Json.Literal.number? literal).map number
  | .string content => content.map text
  | _ => none

end DefaultValue

namespace Editor

namespace AttributeValue

def keys : List Text :=
  ["kind", "type"].map String.toList

def toJson (value : AttributeValue) : Json :=
  ofFields [
    ("kind".toList, some (.text value.kind)),
    ("type".toList, some (.text value.type))]

def ofJson? (json : Json) : Option AttributeValue := do
  let record ← Record.ofJson? keys json
  let kind ← record.required? Json.text? "kind".toList
  let type ← record.required? Json.text? "type".toList
  return { kind, type }

end AttributeValue

namespace Attribute

def keys : List Text :=
  ["name", "description", "default", "value"].map String.toList

def toJson (item : Attribute) : Json :=
  ofFields [
    ("name".toList, some (.text item.name)),
    ("description".toList, item.description.map Json.text),
    ("default".toList, item.default.map DefaultValue.toJson),
    ("value".toList, some item.value.toJson)]

def ofJson? (json : Json) : Option Attribute := do
  let record ← Record.ofJson? keys json
  let name ← record.required? Json.text? "name".toList
  let description ← record.optional? Json.text? "description".toList
  let default ← record.optional? DefaultValue.ofJson? "default".toList
  let value ← record.required? AttributeValue.ofJson? "value".toList
  return { name, description, default, value }

end Attribute

namespace Named

def keys : List Text :=
  ["name", "description"].map String.toList

def toJson (named : Named) : Json :=
  ofFields [
    ("name".toList, some (.text named.name)),
    ("description".toList, named.description.map Json.text)]

def ofJson? (json : Json) : Option Named := do
  let record ← Record.ofJson? keys json
  let name ← record.required? Json.text? "name".toList
  let description ← record.optional? Json.text? "description".toList
  return { name, description }

end Named

namespace Element

def keys : List Text :=
  ["name", "description", "doc-url", "attributes", "events", "slots"].map
    String.toList

def toJson (element : Element) : Json :=
  ofFields [
    ("name".toList, some (.text element.name)),
    ("description".toList, element.description.map Json.text),
    ("doc-url".toList, element.docUrl.map Json.text),
    ("attributes".toList,
      some (.array (element.attributes.map Attribute.toJson))),
    ("events".toList, some (.array (element.events.map Named.toJson))),
    ("slots".toList, some (.array (element.slots.map Named.toJson)))]

def ofJson? (json : Json) : Option Element := do
  let record ← Record.ofJson? keys json
  let name ← record.required? Json.text? "name".toList
  let description ← record.optional? Json.text? "description".toList
  let docUrl ← record.optional? Json.text? "doc-url".toList
  let attributes ←
    record.required? (Json.list? Attribute.ofJson?) "attributes".toList
  let events ← record.required? (Json.list? Named.ofJson?) "events".toList
  let slots ← record.required? (Json.list? Named.ofJson?) "slots".toList
  return { name, description, docUrl, attributes, events, slots }

end Element

namespace HtmlContributions

def toJson (html : HtmlContributions) : Json :=
  ofFields [
    ("elements".toList, some (.array (html.elements.map Element.toJson)))]

def ofJson? (json : Json) : Option HtmlContributions := do
  let record ← Record.ofJson? ["elements".toList] json
  let elements ←
    record.required? (Json.list? Element.ofJson?) "elements".toList
  return { elements }

end HtmlContributions

namespace Contributions

def toJson (contributions : Contributions) : Json :=
  ofFields [("html".toList, some contributions.html.toJson)]

def ofJson? (json : Json) : Option Contributions := do
  let record ← Record.ofJson? ["html".toList] json
  let html ← record.required? HtmlContributions.ofJson? "html".toList
  return { html }

end Contributions

namespace WebTypes

def keys : List Text :=
  ["$schema", "framework", "name", "version", "js-types-syntax",
    "description-markup", "contributions"].map String.toList

def toJson (document : WebTypes) : Json :=
  ofFields [
    ("$schema".toList, some (.text document.schema)),
    ("framework".toList, some (.text document.framework)),
    ("name".toList, some (.text document.name)),
    ("version".toList, some (.text document.version)),
    ("js-types-syntax".toList, some (.text document.typesSyntax)),
    ("description-markup".toList, some (.text document.descriptionMarkup)),
    ("contributions".toList, some document.contributions.toJson)]

def ofJson? (json : Json) : Option WebTypes := do
  let record ← Record.ofJson? keys json
  let schema ← record.required? Json.text? "$schema".toList
  let framework ← record.required? Json.text? "framework".toList
  let name ← record.required? Json.text? "name".toList
  let version ← record.required? Json.text? "version".toList
  let typesSyntax ← record.required? Json.text? "js-types-syntax".toList
  let descriptionMarkup ←
    record.required? Json.text? "description-markup".toList
  let contributions ←
    record.required? Contributions.ofJson? "contributions".toList
  return {
    schema
    framework
    name
    version
    typesSyntax
    descriptionMarkup
    contributions }

end WebTypes

end Editor

end ComponentDocs
