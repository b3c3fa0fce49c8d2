import ComponentDocs.Proofs.Assembly.Collect
import ComponentDocs.Proofs.Page.Table

/-!
Which names the lists of a component hold: those of the rows in the table of
the section, apart from rows of alignment marks and rows that repeat the header
of the name column.
-/

namespace ComponentDocs

open Page

/-- The kinds of entities that a component lists. -/
inductive EntityKind
  | property
  | event
  | slot
  | method
deriving DecidableEq, Repr

namespace EntityKind

/-- The section of the API block that lists the entities of a kind. -/
def sectionName : EntityKind → Text
  | property => Assembly.attributesSection
  | event => Assembly.eventsSection
  | slot => Assembly.slotsSection
  | method => Assembly.exposesSection

/-- The names of the entities of a kind, in the order of the component. -/
def names (component : Component) : EntityKind → List Text
  | property => component.props.map Property.name
  | event => component.events.map Event.name
  | slot => component.slots.map Slot.name
  | method => component.methods.map Method.name

end EntityKind

namespace Assembly

/-! ## Names of collected rows -/

theorem mem_collect_names {α : Type} {name : α → Text}
    {entity? : Row → Option α}
    (named : ∀ row, (entity? row).map name = entityName? row)
    (rows : List Row) (wanted : Text) :
    wanted ∈ (collect name entity? rows).map name ↔
      ∃ row ∈ rows, entityName? row = some wanted := by
  have names_eq :
      (rows.filterMap entity?).map name = rows.filterMap entityName? := by
    rw [List.map_filterMap]
    exact congrArg (rows.filterMap ·) (funext named)
  rw [collect_eq_latest, map_name_latest, List.mem_eraseDups, names_eq,
    List.mem_filterMap]

/-- The names of a kind are those of the rows in its section. -/
theorem mem_names_ofParts (slug : Text) (options : ParseOptions)
    (front : FrontMatter) (body title : Text) (kind : EntityKind)
    (wanted : Text) :
    wanted ∈ kind.names (ofParts slug options front body title) ↔
      ∃ row ∈ sectionRows options body kind.sectionName,
        entityName? row = some wanted := by
  have named {α : Type} (name : α → Text) (build : Row → Text → α)
      (kept : ∀ row written, name (build row written) = written) (row : Row) :
      ((entityName? row).map (build row)).map name = entityName? row := by
    cases entityName? row with
    | none => rfl
    | some written => exact congrArg some (kept row written)
  cases kind with
  | property => exact mem_collect_names (named _ _ fun _ _ => rfl) _ _
  | event => exact mem_collect_names (named _ _ fun _ _ => rfl) _ _
  | slot => exact mem_collect_names (named _ _ fun _ _ => rfl) _ _
  | method => exact mem_collect_names (named _ _ fun _ _ => rfl) _ _

theorem component_of_read {slug page body : Text} {options : ParseOptions}
    {front : FrontMatter} (parts : FrontMatter.read page = .ok (front, body)) :
    Assembly.component slug page options =
      (componentName slug front).map (ofParts slug options front body) := by
  unfold Assembly.component
  cases title : componentName slug front with
  | error failure =>
      simp [parts, title, bind, Except.bind, Except.map]
  | ok name =>
      simp [parts, title, bind, Except.bind, pure, Except.pure, Except.map]

theorem component_of_read_error {slug page : Text} {options : ParseOptions}
    {failure : Failure} (unread : FrontMatter.read page = .error failure) :
    Assembly.component slug page options = .error failure := by
  unfold Assembly.component
  rw [unread]
  rfl

/-- A page that gives a component has front matter with a title and a body. -/
theorem component_eq_ok {slug page : Text} {options : ParseOptions}
    {component : Component}
    (assembled : Assembly.component slug page options = .ok component) :
    ∃ front body title,
      FrontMatter.read page = .ok (front, body) ∧
        componentName slug front = .ok title ∧
          component = ofParts slug options front body title := by
  cases parts : FrontMatter.read page with
  | error failure =>
      rw [component_of_read_error parts] at assembled
      cases assembled
  | ok split =>
      obtain ⟨front, body⟩ := split
      rw [component_of_read parts] at assembled
      cases title : componentName slug front with
      | error failure =>
          rw [title] at assembled
          cases assembled
      | ok name =>
          rw [title] at assembled
          exact ⟨front, body, name, rfl, title, (Except.ok.inj assembled).symm⟩

/-- The type of an assembled property is read from a cell, or from nothing. -/
theorem type_of_mem_props {slug page : Text} {options : ParseOptions}
    {component : Component}
    (assembled : Assembly.component slug page options = .ok component)
    {property : Property} (member : property ∈ component.props) :
    property.type = TypeExpression.ofText property.type.raw := by
  obtain ⟨front, body, title, -, -, rfl⟩ := component_eq_ok assembled
  have collected : property ∈ collect Property.name property?
      (sectionRows options body attributesSection) := member
  rw [collect_eq_latest] at collected
  obtain ⟨row, -, read⟩ :=
    List.mem_filterMap.mp (mem_of_mem_latest _ collected)
  obtain ⟨name, -, rfl⟩ := Option.map_eq_some_iff.mp read
  change typeOfRow row = TypeExpression.ofText (typeOfRow row).raw
  unfold typeOfRow
  cases row.cellUnder? typeHeaders with
  | none => rfl
  | some cell => rfl

/-! ## Tables of entities -/

theorem cellUnder?_mem {row : Row} {aliases : List Text} {cell : Text × Text}
    (found : row.cellUnder? aliases = some cell) :
    cell ∈ row.cells ∧
      ∃ wanted ∈ aliases, Text.sameIgnoringCase cell.1 wanted = true := by
  obtain ⟨wanted, member, isCell⟩ := List.exists_of_findSome?_eq_some found
  have same := List.find?_some isCell
  exact ⟨List.mem_of_find?_eq_some isCell, wanted, member, same⟩

/-- A row that names an entity stands under a header that is not empty. -/
theorem exists_header_of_entityName? {row : Row} {wanted : Text}
    (named : entityName? row = some wanted) :
    ∃ header ∈ row.headers, header ≠ [] := by
  cases under : row.cellUnder? nameHeaders with
  | none =>
      simp [entityName?, under] at named
  | some cell =>
      obtain ⟨member, accepted, acceptedMember, same⟩ := cellUnder?_mem under
      refine ⟨cell.1, List.mem_map_of_mem member, ?_⟩
      intro empty
      have acceptedEmpty : accepted = [] := by
        rw [empty] at same
        cases accepted with
        | nil => rfl
        | cons first rest => simp [Text.sameIgnoringCase] at same
      have noneEmpty : [] ∉ nameHeaders := by
        decide
      exact noneEmpty (acceptedEmpty ▸ acceptedMember)

theorem mem_entityRows {rows : List Row} {row : Row} :
    row ∈ entityRows rows ↔
      row ∈ rows ∧ row.isSeparator = false ∧
        isRepeatedHeader row = false := by
  simp [entityRows]

/-- No documented entity is lost and none is invented: where a section holds
one table whose header row does not read like prose, the names of the kind are
those of its rows, apart from rows of alignment marks and rows that repeat the
header of the name column. -/
theorem mem_names_iff {slug page : Text} {options : ParseOptions}
    {component : Component} {front : FrontMatter} {body : Text}
    {kind : EntityKind} {table : WrittenTable}
    (assembled : Assembly.component slug page options = .ok component)
    (parts : FrontMatter.read page = .ok (front, body))
    (written :
      visibleLines (sectionText body options.apiHeading kind.sectionName) =
        table.lines)
    (plain : options.tableOptions.looksLikeProse table.header.line = false)
    (wanted : Text) :
    wanted ∈ kind.names component ↔
      ∃ row ∈ table.bodyRows,
        row.isSeparator = false ∧ isRepeatedHeader row = false ∧
          entityName? row = some wanted := by
  obtain ⟨_, _, title, partsAgain, -, rfl⟩ := component_eq_ok assembled
  rw [parts, Except.ok.injEq, Prod.mk.injEq] at partsAgain
  obtain ⟨rfl, rfl⟩ := partsAgain
  rw [mem_names_ofParts, sectionRows, table.readTable_eq written plain]
  -- An empty header row has no name column.
  have headed (row : Row) (member : row ∈ table.bodyRows)
      (named : entityName? row = some wanted) :
      table.header.cells.all List.isEmpty = false := by
    obtain ⟨header, headerMember, nonempty⟩ :=
      exists_header_of_entityName? named
    obtain ⟨source, -, rfl⟩ := List.mem_map.mp member
    rw [table.headers_row] at headerMember
    simpa using ⟨header, headerMember, nonempty⟩
  constructor
  · rintro ⟨row, member, named⟩
    rw [mem_entityRows] at member
    split at member
    · exact absurd member.1 List.not_mem_nil
    · exact ⟨row, member.1, member.2.1, member.2.2, named⟩
  · rintro ⟨row, member, notSeparator, notRepeated, named⟩
    refine ⟨row, mem_entityRows.mpr ⟨?_, notSeparator, notRepeated⟩, named⟩
    rw [headed row member named]
    exact member

/-! ## A form with a property called name -/

def formFront : FrontMatter :=
  ⟨[(titleKey, "Form".toList)]⟩

def formBody : Text :=
  Text.join ['\n'] <|
    ["## API", "### Attributes", "", "| Name | Type |", "| --- | --- |",
      "| name | string |", "| size | number |"].map String.toList

/-- The page of a form. -/
def formPage : Text :=
  "---\ntitle: Form\n---\n".toList ++ formBody

def formComponent : Component :=
  ofParts "form".toList .default formFront formBody "Form".toList

def formTable : WrittenTable where
  header :=
    .ofCells ["Name".toList, "Type".toList] (by decide) (by decide)
  delimiter :=
    .ofCells ["---".toList, "---".toList] (by decide) (by decide)
  rows :=
    [.ofCells ["name".toList, "string".toList] (by decide) (by decide),
      .ofCells ["size".toList, "number".toList] (by decide) (by decide)]
  piped := by
    decide
  headed := by
    decide
  aligned := by
    decide

theorem formComponent_assembled :
    Assembly.component "form".toList formPage .default =
      .ok formComponent := by
  decide

theorem formPage_read :
    FrontMatter.read formPage = .ok (formFront, formBody) := by
  decide

theorem formTable_written :
    visibleLines (sectionText formBody ParseOptions.default.apiHeading
      EntityKind.property.sectionName) = formTable.lines := by
  decide

theorem form_lists_size :
    "size".toList ∈ EntityKind.property.names formComponent :=
  (mem_names_iff formComponent_assembled formPage_read formTable_written
    (by decide +kernel) _).mpr (by decide +kernel)

/-- A row is taken for a repeated header by its name cell alone, so that a
property called `name` of a type other than `Type` is not listed. -/
theorem form_lacks_name :
    Assembly.component "form".toList formPage .default =
        .ok formComponent ∧
      visibleLines (sectionText formBody ParseOptions.default.apiHeading
        EntityKind.property.sectionName) = formTable.lines ∧
      (∃ row ∈ formTable.bodyRows,
        row.isSeparator = false ∧
          (∃ cell ∈ row.cells,
            Text.sameIgnoringCase cell.2 cell.1 = false) ∧
          entityName? row = some "name".toList) ∧
      "name".toList ∉ EntityKind.property.names formComponent :=
  ⟨formComponent_assembled, formTable_written, by decide +kernel,
    by decide +kernel⟩

end Assembly

end ComponentDocs
