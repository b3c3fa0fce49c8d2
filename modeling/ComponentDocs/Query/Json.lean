import ComponentDocs.Component.Json
import ComponentDocs.Query.Answer

/-!
The JSON form of requests and answers. The detail of a component is its object
with one more field.
-/

namespace ComponentDocs.Query

open Json (Record ofFields)

namespace Summary

def keys : List Text :=
  ["tagName", "description", "docUrl"].map String.toList

def toJson (summary : Summary) : Json :=
  ofFields [
    ("tagName".toList, some (.text summary.tag)),
    ("description".toList, summary.description.map Json.text),
    ("docUrl".toList, summary.docUrl.map Json.text)]

def ofJson? (json : Json) : Option Summary := do
  let record ← Record.ofJson? keys json
  let tag ← record.required? Json.text? "tagName".toList
  let description ← record.optional? Json.text? "description".toList
  let docUrl ← record.optional? Json.text? "docUrl".toList
  return { tag, description, docUrl }

end Summary

namespace Listing

def keys : List Text :=
  ["total", "components"].map String.toList

def toJson (listing : Listing) : Json :=
  ofFields [
    ("total".toList, some (.natural listing.total)),
    ("components".toList,
      some (.array (listing.components.map Summary.toJson)))]

def ofJson? (json : Json) : Option Listing := do
  let record ← Record.ofJson? keys json
  let total ← record.required? Json.natural? "total".toList
  let components ←
    record.required? (Json.list? Summary.ofJson?) "components".toList
  return { total, components }

end Listing

namespace SearchRequest

def keys : List Text :=
  ["keyword", "limit"].map String.toList

def toJson (request : SearchRequest) : Json :=
  ofFields [
    ("keyword".toList, some (.text request.keyword)),
    ("limit".toList, request.limit.map Json.natural)]

def ofJson? (json : Json) : Option SearchRequest := do
  let record ← Record.ofJson? keys json
  let keyword ← record.required? Json.text? "keyword".toList
  let limit ← record.optional? Json.natural? "limit".toList
  return { keyword, limit }

end SearchRequest

namespace SearchResult

def keys : List Text :=
  ["keyword", "total", "results"].map String.toList

def toJson (result : SearchResult) : Json :=
  ofFields [
    ("keyword".toList, some (.text result.keyword)),
    ("total".toList, some (.natural result.total)),
    ("results".toList, some (.array (result.results.map Summary.toJson)))]

def ofJson? (json : Json) : Option SearchResult := do
  let record ← Record.ofJson? keys json
  let keyword ← record.required? Json.text? "keyword".toList
  let total ← record.required? Json.natural? "total".toList
  let results ←
    record.required? (Json.list? Summary.ofJson?) "results".toList
  return { keyword, total, results }

end SearchResult

namespace Detail

def typeDefinitionKey : Text := "typeDefinition".toList

def toJson (detail : Detail) : Json :=
  ofFields <|
    detail.component.fields ++
      [(typeDefinitionKey, detail.typeDefinition.map Json.text)]

/-- A detail is an object, and all of its values are kept while it is read. -/
def ofJson? (json : Json) : Option Detail :=
  match json with
  | .object _ =>
      if json.canKeep then do
        let record ←
          Record.ofJson? (Component.keys ++ [typeDefinitionKey]) json
        let component ← Component.ofRecord? record
        let typeDefinition ← record.optional? Json.text? typeDefinitionKey
        return { component, typeDefinition }
      else none
  | _ => none

end Detail

namespace Examples

def keys : List Text :=
  ["tagName", "content", "found"].map String.toList

def toJson (examples : Examples) : Json :=
  ofFields [
    ("tagName".toList, some (.text examples.tag)),
    ("content".toList, some (.text examples.content)),
    ("found".toList, some (.bool examples.found))]

def ofJson? (json : Json) : Option Examples := do
  let record ← Record.ofJson? keys json
  let tag ← record.required? Json.text? "tagName".toList
  let content ← record.required? Json.text? "content".toList
  let found ← record.required? Json.bool? "found".toList
  return { tag, content, found }

end Examples

end ComponentDocs.Query
