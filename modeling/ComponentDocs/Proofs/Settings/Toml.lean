import ComponentDocs.Proofs.Toml.Document
import ComponentDocs.Settings.Toml

/-!
Settings are read back from their TOML form, whatever texts they hold.
-/

namespace ComponentDocs

open Toml (Line)

/-! ## Paths -/

namespace Locations

def lines (locations : Locations) : List Line :=
  [.ofText "docs_dir".toList (by decide) locations.pages,
    .ofText "data_dir".toList (by decide) locations.data,
    .ofText "manifest".toList (by decide) locations.manifest]

theorem toToml_eq (locations : Locations) :
    locations.toToml =
      Toml.writeHeader "paths".toList ++
        locations.lines.flatMap Line.text := by
  simp [toToml, lines, Line.text, Line.ofText]

theorem ofToml?_lines (locations : Locations) :
    ofToml? (.table (locations.lines.map fun line => (line.key, line.value))) =
      some locations :=
  rfl

end Locations

/-! ## Reading of pages -/

namespace ParseOptions

def addressLines : Option Text → List Line
  | some address => [.ofText "doc_base_url".toList (by decide) address]
  | none => []

def lines (options : ParseOptions) : List Line :=
  .ofText "component_prefix".toList (by decide) options.componentPrefix ::
    (addressLines options.docBaseUrl ++
      [.ofText "api_heading".toList (by decide) options.apiHeading,
        .ofTexts "prose_markers".toList (by decide) options.proseMarkers])

theorem flatMap_addressLines (address : Option Text) :
    (addressLines address).flatMap Line.text = addressLine address := by
  cases address with
  | none => rfl
  | some address => exact List.flatMap_singleton ..

theorem toToml_eq (options : ParseOptions) :
    options.toToml =
      Toml.writeHeader "parse".toList ++ options.lines.flatMap Line.text := by
  simp [toToml, lines, flatMap_addressLines, Line.text, Line.ofText,
    Line.ofTexts]

theorem texts?_array (contents : List Text) :
    Toml.Value.texts? (.array (contents.map .text)) = some contents := by
  induction contents with
  | nil => rfl
  | cons content contents inductionHypothesis =>
      rw [Toml.Value.texts?] at inductionHypothesis ⊢
      rw [List.map_cons, List.mapM_cons, inductionHypothesis]
      rfl

theorem ofToml?_lines (options : ParseOptions) :
    ofToml? (.table (options.lines.map fun line => (line.key, line.value))) =
      some options := by
  obtain ⟨componentPrefix, address, heading, markers⟩ := options
  have readMarkers := congrArg (Option.bind · fun proseMarkers =>
    some (⟨componentPrefix, address, heading, proseMarkers⟩ : ParseOptions))
    (texts?_array markers)
  cases address with
  | none =>
      exact readMarkers
  | some address =>
      exact readMarkers

end ParseOptions

/-! ## Documents -/

namespace Settings

def tableEntries (settings : Settings) : List (Text × Toml.Value) :=
  [("paths".toList,
      .table (settings.locations.lines.map fun line =>
        (line.key, line.value))),
    ("parse".toList,
      .table (settings.parse.lines.map fun line => (line.key, line.value)))]

theorem read?_toToml (settings : Settings) :
    Toml.read? settings.toToml = some settings.tableEntries := by
  have parseKeys : (settings.parse.lines.map Line.key).Nodup := by
    obtain ⟨_, _, _ | _, _, _⟩ := settings
    · exact (by decide : (["component_prefix", "api_heading",
        "prose_markers"].map String.toList).Nodup)
    · exact (by decide : (["component_prefix", "doc_base_url", "api_heading",
        "prose_markers"].map String.toList).Nodup)
  have pathKeys : (settings.locations.lines.map Line.key).Nodup :=
    (by decide : (["docs_dir", "data_dir",
      "manifest"].map String.toList).Nodup)
  have reads : Toml.ReadsTo ⟨[], []⟩ settings.toToml
      ⟨[("paths".toList,
          .table .stated (settings.locations.lines.map Line.entry)),
        ("parse".toList,
          .table .stated (settings.parse.lines.map Line.entry))],
        ["parse".toList]⟩ := by
    have shape : settings.toToml =
        Toml.writeHeader "paths".toList ++
          (settings.locations.lines.flatMap Line.text ++
            '\n' :: (Toml.writeHeader "parse".toList ++
              (settings.parse.lines.flatMap Line.text ++ []))) := by
      simp [toToml, Locations.toToml_eq, ParseOptions.toToml_eq]
    rw [shape]
    exact .table (by decide) (by simp) pathKeys <| .blankLine <|
      .table (by decide) (by simp) parseKeys (.nil _)
  have noMark : settings.toToml.head? ≠ some '\ufeff' := by
    simp [toToml, Locations.toToml, Toml.writeHeader]
  rw [Toml.read?_eq noMark reads]
  simp [tableEntries, Toml.Item.tableEntries, Toml.Item.toValue,
    Toml.Item.tableEntries_lines]

/-- Settings are what their TOML form says. -/
theorem ofToml?_toToml (settings : Settings) :
    ofToml? settings.toToml = some settings := by
  have readPaths : Toml.field? .default Locations.ofToml? "paths".toList
      settings.tableEntries = some settings.locations :=
    settings.locations.ofToml?_lines
  have readParse : Toml.field? .default ParseOptions.ofToml? "parse".toList
      settings.tableEntries = some settings.parse :=
    settings.parse.ofToml?_lines
  rw [ofToml?, read?_toToml]
  simp only [Option.bind_eq_bind, Option.bind_some, readPaths, readParse]
  rfl

end Settings

end ComponentDocs
