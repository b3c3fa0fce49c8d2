import ComponentDocs.Settings.Basic
import ComponentDocs.Toml.Reader
import ComponentDocs.Toml.Writer

/-!
The TOML form of settings. What is left out has its value by default; what is
not known is ignored.

A record may be written as a table or as an array of its fields in order. A
point of time counts as a table without any field.
-/

namespace ComponentDocs

open Toml (Value)

namespace Toml.Value

def text? : Value → Option Text
  | text content => some content
  | _ => none

def texts? : Value → Option (List Text)
  | array items => items.mapM text?
  | _ => none

def fields? (keys : List Text) : Value → Option (List (Text × Value))
  | table entries => some entries
  | array items => some (keys.zip items)
  | moment _ => some []
  | _ => none

end Toml.Value

/-- A field of a record, or its value by default. -/
def Toml.field? {α : Type} (fallback : α) (decode? : Value → Option α)
    (key : Text) (fields : List (Text × Value)) : Option α :=
  match fields.find? (fun field => field.1 == key) with
  | some (_, value) => decode? value
  | none => some fallback

/-! ## Reading -/

namespace Locations

def ofToml? (value : Value) : Option Locations := do
  let fields ←
    value.fields? (["docs_dir", "data_dir", "manifest"].map String.toList)
  let pages ←
    Toml.field? default.pages Value.text? "docs_dir".toList fields
  let data ← Toml.field? default.data Value.text? "data_dir".toList fields
  let manifest ←
    Toml.field? default.manifest Value.text? "manifest".toList fields
  return { pages, data, manifest }

end Locations

namespace ParseOptions

def ofToml? (value : Value) : Option ParseOptions := do
  let fields ←
    value.fields? <|
      ["component_prefix", "doc_base_url", "api_heading",
        "prose_markers"].map String.toList
  let componentPrefix ←
    Toml.field? default.componentPrefix Value.text?
      "component_prefix".toList fields
  let docBaseUrl ←
    Toml.field? none (fun address => address.text?.map some)
      "doc_base_url".toList fields
  let apiHeading ←
    Toml.field? default.apiHeading Value.text? "api_heading".toList fields
  let proseMarkers ←
    Toml.field? default.proseMarkers Value.texts? "prose_markers".toList
      fields
  return { componentPrefix, docBaseUrl, apiHeading, proseMarkers }

end ParseOptions

namespace Settings

def ofToml? (document : Text) : Option Settings := do
  let entries ← Toml.read? document
  let locations ←
    Toml.field? Locations.default Locations.ofToml? "paths".toList entries
  let parse ←
    Toml.field? ParseOptions.default ParseOptions.ofToml? "parse".toList
      entries
  return { locations, parse }

end Settings

/-! ## Writing -/

namespace Locations

def toToml (locations : Locations) : Text :=
  Toml.writeHeader "paths".toList ++
    Toml.writeLine "docs_dir".toList (Toml.writeText locations.pages) ++
    Toml.writeLine "data_dir".toList (Toml.writeText locations.data) ++
    Toml.writeLine "manifest".toList (Toml.writeText locations.manifest)

end Locations

namespace ParseOptions

def addressLine : Option Text → Text
  | some address =>
      Toml.writeLine "doc_base_url".toList (Toml.writeText address)
  | none => []

def toToml (options : ParseOptions) : Text :=
  Toml.writeHeader "parse".toList ++
    Toml.writeLine "component_prefix".toList
      (Toml.writeText options.componentPrefix) ++
    addressLine options.docBaseUrl ++
    Toml.writeLine "api_heading".toList (Toml.writeText options.apiHeading) ++
    Toml.writeLine "prose_markers".toList
      (Toml.writeTexts options.proseMarkers)

end ParseOptions

def Settings.toToml (settings : Settings) : Text :=
  settings.locations.toToml ++ ['\n'] ++ settings.parse.toToml

end ComponentDocs
