import ComponentDocs.Json.Record
import ComponentDocs.Settings.Basic

/-!
The JSON form of settings. What is left out has its value by default.
-/

namespace ComponentDocs

open Json (Record ofFields)

namespace Page.TableOptions

def toJson (options : TableOptions) : Json :=
  ofFields [
    ("prose_markers".toList,
      some (.array (options.proseMarkers.map Json.text)))]

def ofJson? (json : Json) : Option TableOptions := do
  let record ← Record.ofJson? ["prose_markers".toList] json
  let proseMarkers ←
    record.required? (Json.list? Json.text?) "prose_markers".toList
  return { proseMarkers }

end Page.TableOptions

namespace Locations

def keys : List Text :=
  ["docs_dir", "data_dir", "manifest"].map String.toList

def toJson (locations : Locations) : Json :=
  ofFields [
    ("docs_dir".toList, some (.text locations.pages)),
    ("data_dir".toList, some (.text locations.data)),
    ("manifest".toList, some (.text locations.manifest))]

def ofJson? (json : Json) : Option Locations := do
  let record ← Record.ofJson? keys json
  let pages ←
    record.defaulted? Locations.default.pages Json.text? "docs_dir".toList
  let data ←
    record.defaulted? Locations.default.data Json.text? "data_dir".toList
  let manifest ←
    record.defaulted? Locations.default.manifest Json.text? "manifest".toList
  return { pages, data, manifest }

end Locations

namespace ParseOptions

def keys : List Text :=
  ["component_prefix", "doc_base_url", "api_heading", "prose_markers"].map
    String.toList

def addressToJson : Option Text → Json
  | some address => .text address
  | none => .null

def toJson (options : ParseOptions) : Json :=
  ofFields [
    ("component_prefix".toList, some (.text options.componentPrefix)),
    ("doc_base_url".toList, some (addressToJson options.docBaseUrl)),
    ("api_heading".toList, some (.text options.apiHeading)),
    ("prose_markers".toList,
      some (.array (options.proseMarkers.map Json.text)))]

def ofJson? (json : Json) : Option ParseOptions := do
  let record ← Record.ofJson? keys json
  let componentPrefix ←
    record.defaulted? ParseOptions.default.componentPrefix Json.text?
      "component_prefix".toList
  let docBaseUrl ← record.nullable? Json.text? "doc_base_url".toList
  let apiHeading ←
    record.defaulted? ParseOptions.default.apiHeading Json.text?
      "api_heading".toList
  let proseMarkers ←
    record.defaulted? ParseOptions.default.proseMarkers
      (Json.list? Json.text?) "prose_markers".toList
  return { componentPrefix, docBaseUrl, apiHeading, proseMarkers }

end ParseOptions

namespace Settings

def keys : List Text :=
  ["paths", "parse"].map String.toList

def toJson (settings : Settings) : Json :=
  ofFields [
    ("paths".toList, some settings.locations.toJson),
    ("parse".toList, some settings.parse.toJson)]

def ofJson? (json : Json) : Option Settings := do
  let record ← Record.ofJson? keys json
  let locations ←
    record.defaulted? Locations.default Locations.ofJson? "paths".toList
  let parse ←
    record.defaulted? ParseOptions.default ParseOptions.ofJson? "parse".toList
  return { locations, parse }

end Settings

end ComponentDocs
