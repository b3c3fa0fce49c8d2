import ComponentDocs.Json.Reader
import ComponentDocs.Json.Record

/-!
The name and the version in the text of a package manifest.
-/

namespace ComponentDocs.Manifest

open Json (Record)

/-- The version that a manifest states, if it is a string or absent; an outer
`none` is the failure of a manifest that cannot be read. -/
def statedVersion? (content : Text) : Option (Option Text) := do
  let json ← Json.read? content
  let record ← Record.ofJson? ["version".toList] json
  record.optional? Json.text? "version".toList

/-- The trimmed version of a manifest, unless it is blank. -/
def version? (content : Text) : Option Text := do
  let stated ← statedVersion? content
  let version := Text.trim (← stated)
  if version.isEmpty then none else some version

def lastField? (key : Text) (fields : List (Option Text × Json)) :
    Option Json :=
  (fields.reverse.find? (fun field => field.1 == some key)).map Prod.snd

/-- The name in a manifest of which every value can be kept. -/
def name? (content : Text) : Option Text := do
  let json ← Json.read? content
  if json.canKeep then
    match json with
    | .object fields => (← lastField? "name".toList fields).text?
    | _ => none
  else none

end ComponentDocs.Manifest
