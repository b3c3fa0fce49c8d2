import ComponentDocs.Proofs.Assembly.CanonicalRow
import ComponentDocs.Proofs.Assembly.Entities
import ComponentDocs.Proofs.Page.FrontMatter

/-!
Canonical pages: front matter with a title, and below it the heading `API` with
a section and a table for each kind of entity. Assembling such a page gives the
entities of its tables, each from the rows of its own section.
-/

namespace ComponentDocs

open Page Markdown

/-- The kinds of entities in the order of their sections. -/
def EntityKind.all : List EntityKind :=
  [.property, .event, .slot, .method]

theorem EntityKind.isHeadingName_sectionName (kind : EntityKind) :
    IsHeadingName kind.sectionName := by
  cases kind <;>
    exact ⟨⟨by decide, by decide⟩, by decide,
      by decide, by decide⟩

/-- The sections before that of a kind have other names. -/
theorem EntityKind.exists_all_split (kind : EntityKind) :
    ∃ front back, EntityKind.all = front ++ kind :: back ∧
      ∀ other ∈ front,
        Text.sameIgnoringCase other.sectionName kind.sectionName = false := by
  cases kind with
  | property =>
      exact ⟨[], [.event, .slot, .method], rfl, by decide⟩
  | event =>
      exact ⟨[.property], [.slot, .method], rfl, by decide⟩
  | slot =>
      exact ⟨[.property, .event], [.method], rfl, by decide⟩
  | method =>
      exact ⟨[.property, .event, .slot], [], rfl, by decide⟩

namespace Assembly

/-! ## The table -/

def alignmentCells : List Text :=
  List.replicate 4 "---".toList

theorem isCanonicalCell_header :
    ∀ cell ∈ canonicalHeaders ++ alignmentCells, IsCanonicalCell cell := by
  decide

def headerRow : WrittenRow :=
  writtenCells canonicalHeaders (by decide) fun cell member =>
    isCanonicalCell_header cell (List.mem_append_left _ member)

def alignmentRow : WrittenRow :=
  writtenCells alignmentCells (by decide) fun cell member =>
    isCanonicalCell_header cell (List.mem_append_right _ member)

theorem cells_headerRow : headerRow.cells = canonicalHeaders :=
  cells_writtenCells _

theorem cells_alignmentRow : alignmentRow.cells = alignmentCells :=
  cells_writtenCells _

def headerLine : Text :=
  "| Name | Description | Type | Default |".toList

def alignmentLine : Text :=
  "| --- | --- | --- | --- |".toList

theorem line_headerRow : headerRow.line = headerLine := by
  decide

theorem isPiped_line {rows : List CanonicalRow} {row : WrittenRow}
    (member :
      row ∈ headerRow :: alignmentRow :: rows.map CanonicalRow.written) :
    IsPiped row.line := by
  rcases List.mem_cons.mp member with rfl | member
  · exact isPiped_writtenCells _
  rcases List.mem_cons.mp member with rfl | member
  · exact isPiped_writtenCells _
  · obtain ⟨source, -, rfl⟩ := List.mem_map.mp member
    exact isPiped_writtenCells _

def canonicalTable (rows : List CanonicalRow) : WrittenTable where
  header := headerRow
  delimiter := alignmentRow
  rows := rows.map CanonicalRow.written
  piped := fun _ member => List.mem_of_mem_head? (isPiped_line member).starts
  headed := by
    rw [cells_headerRow]
    decide +kernel
  aligned := by
    rw [cells_alignmentRow]
    decide +kernel

section Table

variable (rows : List CanonicalRow)

theorem isPiped_of_mem_lines {line : Text}
    (member : line ∈ (canonicalTable rows).lines) : IsPiped line := by
  obtain ⟨written, writtenMember, rfl⟩ := List.mem_map.mp member
  exact isPiped_line writtenMember

theorem bodyRows_canonicalTable :
    (canonicalTable rows).bodyRows = rows.map CanonicalRow.toRow := by
  have row_eq (row : CanonicalRow) :
      (canonicalTable rows).row row.written = row.toRow := by
    have header_eq : (canonicalTable rows).header.cells = canonicalHeaders :=
      cells_headerRow
    have cells_eq : row.written.cells = row.cells :=
      cells_writtenCells _
    rw [WrittenTable.row, header_eq, cells_eq]
    rfl
  rw [WrittenTable.bodyRows]
  change (rows.map CanonicalRow.written).map _ = _
  rw [List.map_map]
  exact List.map_congr_left fun row _ => row_eq row

/-- A canonical table alone in a text is read row by row. -/
theorem readTable_canonicalTable {options : TableOptions} {text : Text}
    (visible : visibleLines text = (canonicalTable rows).lines)
    (plain : options.looksLikeProse headerLine = false) :
    readTable options text = rows.map CanonicalRow.toRow := by
  have plainHeader :
      options.looksLikeProse (canonicalTable rows).header.line = false :=
    line_headerRow.symm ▸ plain
  have headed :
      (canonicalTable rows).header.cells.all List.isEmpty = false := by
    have header_eq : (canonicalTable rows).header.cells = canonicalHeaders :=
      cells_headerRow
    rw [header_eq]
    decide
  rw [(canonicalTable rows).readTable_eq visible plainHeader, headed,
    if_neg Bool.false_ne_true, bodyRows_canonicalTable]

end Table

/-! ## The page -/

/-- The line feeds after the table of a kind: `gap` empty lines stand before
the next section, and `ends` line feeds at the end of the page. -/
def feedsAfter (gap ends : Nat) : EntityKind → Nat
  | .method => ends
  | _ => gap + 1

/-- The heading `API` with `gap` empty lines below it. -/
def apiPart (gap : Nat) : Part where
  level := 2
  name := "API".toList
  pieces := [] :: List.replicate gap []
  level_pos := by
    decide
  level_le := by
    decide
  named :=
    ⟨⟨by decide +kernel, by decide +kernel⟩, by decide +kernel,
      by decide +kernel, by decide +kernel⟩
  plain := by
    intro piece member
    rcases List.mem_cons.mp member with rfl | added
    · exact isPlain_nil
    · rw [List.eq_of_mem_replicate added]
      exact isPlain_nil
  flat := by
    intro piece member
    rcases List.mem_cons.mp member with empty | added
    · exact .inl empty
    · exact .inl (List.eq_of_mem_replicate added)

section Page

variable (title : Text) (rows : EntityKind → List CanonicalRow)
  (gap ends : Nat)

/-- The section of a kind: its heading, an empty line and its table. -/
def sectionPart (kind : EntityKind) : Part where
  level := 3
  name := kind.sectionName
  pieces := (canonicalTable (rows kind)).pieces (feedsAfter gap ends kind)
  level_pos := by
    decide
  level_le := by
    decide
  named := kind.isHeadingName_sectionName
  plain := fun _ =>
    WrittenTable.isPlain_of_mem_pieces
      (fun _ => isPiped_of_mem_lines (rows kind)) _
  flat := fun _ =>
    WrittenTable.isFlatLine_of_mem_pieces
      (fun _ => isPiped_of_mem_lines (rows kind)) _

def canonicalBody : Text :=
  List.replicate gap '\n' ++
    textOf (apiPart gap :: EntityKind.all.map (sectionPart rows gap ends))

/-- The canonical page with a title and the given rows of each kind. -/
def canonicalPage : Text :=
  FrontMatter.block titleKey title ++ canonicalBody rows gap ends

/-! ## Reading the page -/

theorem areClosed_parts :
    AreClosed
      (apiPart gap :: EntityKind.all.map (sectionPart rows gap ends)) := by
  have api : StartsLine (apiPart gap).content := by
    have content_eq :=
      Text.join_append_replicate '\n' (List.cons_ne_nil [] []) gap
    change StartsLine (Text.join ['\n'] ([[]] ++ List.replicate gap []))
    rw [content_eq]
    exact startsLine_feeds gap
  have table (kind : EntityKind) :
      StartsLine (Text.join ['\n']
        ((canonicalTable (rows kind)).pieces (gap + 1))) :=
    WrittenTable.startsLine_join_pieces _ gap
  exact ⟨api, table .property, table .event, table .slot, trivial⟩

/-- The section of a kind holds the lines of its own table only. -/
theorem visibleLines_sectionText (kind : EntityKind) :
    visibleLines (sectionText (canonicalBody rows gap ends) "API".toList
        kind.sectionName) =
      (canonicalTable (rows kind)).lines := by
  obtain ⟨front, back, all_eq, others⟩ := kind.exists_all_split
  have parts_eq :
      EntityKind.all.map (sectionPart rows gap ends) =
        front.map (sectionPart rows gap ends) ++
          sectionPart rows gap ends kind ::
            back.map (sectionPart rows gap ends) := by
    rw [all_eq, List.map_append, List.map_cons]
  have closed := areClosed_parts rows gap ends
  rw [canonicalBody, parts_eq]
  rw [parts_eq] at closed
  have section_eq :
      sectionText
          (List.replicate gap '\n' ++
            textOf (apiPart gap ::
              (front.map (sectionPart rows gap ends) ++
                sectionPart rows gap ends kind ::
                  back.map (sectionPart rows gap ends))))
          (apiPart gap).name (sectionPart rows gap ends kind).name =
        trimLineEnds (sectionPart rows gap ends kind).content := by
    apply sectionText_textOf gap closed
    · intro other member
      rw [← parts_eq] at member
      obtain ⟨otherKind, -, rfl⟩ := List.mem_map.mp member
      exact Nat.lt_succ_self 2
    · intro other member
      obtain ⟨otherKind, otherMember, rfl⟩ := List.mem_map.mp member
      exact others otherKind otherMember
    · intro other member
      obtain ⟨otherKind, -, rfl⟩ := List.mem_map.mp member
      exact Nat.le_refl 3
  -- The names are those of the two parts.
  change visibleLines (sectionText _ (apiPart gap).name
    (sectionPart rows gap ends kind).name) = _
  rw [section_eq]
  exact WrittenTable.visibleLines_join_pieces
    (fun _ => isPiped_of_mem_lines (rows kind)) _

theorem sectionRows_canonicalBody {options : ParseOptions}
    (heading : options.apiHeading = "API".toList)
    (plain : options.tableOptions.looksLikeProse headerLine = false)
    (kind : EntityKind) :
    sectionRows options (canonicalBody rows gap ends) kind.sectionName =
      (rows kind).map CanonicalRow.toRow := by
  rw [sectionRows, heading,
    readTable_canonicalTable _ (visibleLines_sectionText rows gap ends kind)
      plain,
    CanonicalRow.entityRows_map]

end Page

theorem looksLikeProse_headerLine {options : ParseOptions}
    (plain : ∀ marker ∈ options.proseMarkers, marker ≠ [] →
      Text.hasPiece marker headerLine = false) :
    options.tableOptions.looksLikeProse headerLine = false := by
  apply List.any_eq_false.mpr
  intro marker member
  cases marker with
  | nil => decide
  | cons first rest =>
      rw [plain (first :: rest) member (List.cons_ne_nil _ _),
        Bool.and_false]
      exact Bool.false_ne_true

theorem isKey_titleKey : FrontMatter.IsKey titleKey := by
  constructor <;> decide

theorem componentName_of_title (slug : Text) {value name : Text}
    {others : List Text} (named : Text.words value = name :: others) :
    componentName slug ⟨[(titleKey, value)]⟩ = .ok name := by
  have nonempty : value.isEmpty = false := by
    cases value with
    | nil => cases named
    | cons first rest => rfl
  have given :
      (FrontMatter.mk [(titleKey, value)]).get? titleKey = some value := by
    simp [FrontMatter.get?, nonempty]
  rw [componentName, given]
  dsimp only
  rw [named]

/-- Assembling a canonical page recovers its tables. The tag is that of the
first word of the title, and the entities of each kind are computed from the
rows of their own section: rows without a name are left out, and each name
stands in the place of its first row with the values of its last one. -/
theorem component_canonicalPage (slug : Text) {title name : Text}
    {others : List Text} {options : ParseOptions}
    (rows : EntityKind → List CanonicalRow) (gap ends : Nat)
    (single : '\n' ∉ title)
    (named :
      Text.words (FrontMatter.unquote (Text.trim title)) = name :: others)
    (heading : options.apiHeading = "API".toList)
    (plain : ∀ marker ∈ options.proseMarkers, marker ≠ [] →
      Text.hasPiece marker headerLine = false) :
    ∃ component,
      Assembly.component slug (canonicalPage title rows gap ends) options =
        .ok component ∧
      component.tag = Name.tag name options.componentPrefix ∧
      component.props =
        latest Property.name
          ((rows .property).filterMap CanonicalRow.property?) ∧
      component.events =
        latest Event.name ((rows .event).filterMap CanonicalRow.event?) ∧
      component.slots =
        latest Slot.name ((rows .slot).filterMap CanonicalRow.slot?) ∧
      component.methods =
        latest Method.name ((rows .method).filterMap CanonicalRow.method?) := by
  have sections := sectionRows_canonicalBody rows gap ends heading
    (looksLikeProse_headerLine plain)
  have attributes :
      sectionRows options (canonicalBody rows gap ends) attributesSection =
        (rows .property).map CanonicalRow.toRow :=
    sections .property
  have events :
      sectionRows options (canonicalBody rows gap ends) eventsSection =
        (rows .event).map CanonicalRow.toRow :=
    sections .event
  have slots :
      sectionRows options (canonicalBody rows gap ends) slotsSection =
        (rows .slot).map CanonicalRow.toRow :=
    sections .slot
  have exposes :
      sectionRows options (canonicalBody rows gap ends) exposesSection =
        (rows .method).map CanonicalRow.toRow :=
    sections .method
  refine ⟨ofParts slug options
      ⟨[(titleKey, FrontMatter.unquote (Text.trim title))]⟩
      (canonicalBody rows gap ends) name, ?_, rfl, ?_, ?_, ?_, ?_⟩
  · rw [Assembly.component, canonicalPage,
      FrontMatter.read_block isKey_titleKey single]
    change (componentName slug _ >>= fun name => _) = _
    rw [componentName_of_title slug named]
    rfl
  · dsimp only [ofParts]
    rw [attributes]
    exact CanonicalRow.collect_map CanonicalRow.property?_toRow _
  · dsimp only [ofParts]
    rw [events]
    exact CanonicalRow.collect_map CanonicalRow.event?_toRow _
  · dsimp only [ofParts]
    rw [slots]
    exact CanonicalRow.collect_map CanonicalRow.slot?_toRow _
  · dsimp only [ofParts]
    rw [exposes]
    exact CanonicalRow.collect_map CanonicalRow.method?_toRow _

/-! ## The page of a button -/

/-- The properties of a button: one that is described twice, and a row without
a name between others. -/
def buttonProperties : List CanonicalRow :=
  [{ name := "type".toList
     description := "kind".toList
     type := "string".toList
     default := "plain".toList
     proper := by
       decide +kernel
     notHeader := by
       decide +kernel
     notAligned := by
       decide +kernel },
    { name := "buttonSize".toList
      description := []
      type := "'large' \\| 'small'".toList
      default := "—".toList
      proper := by
        decide +kernel
      notHeader := by
        decide +kernel
      notAligned := by
        decide +kernel },
    { name := []
      description := "none".toList
      type := []
      default := []
      proper := by
        decide +kernel
      notHeader := by
        decide +kernel
      notAligned := by
        decide +kernel },
    { name := "type ^[new]".toList
      description := "look".toList
      type := "string".toList
      default := "'primary'".toList
      proper := by
        decide +kernel
      notHeader := by
        decide +kernel
      notAligned := by
        decide +kernel }]

def buttonRows : EntityKind → List CanonicalRow
  | .property => buttonProperties
  | _ => []

def buttonPage : Text :=
  Text.join ['\n'] <|
    ["---", "title: Button 按钮", "---", "", "## API", "",
      "### Attributes", "", "| Name | Description | Type | Default |",
      "| --- | --- | --- | --- |",
      "| type | kind | string | plain |",
      "| buttonSize |  | 'large' \\| 'small' | — |",
      "|  | none |  |  |",
      "| type ^[new] | look | string | 'primary' |", ""].map String.toList ++
    ["### Events".toList, [], headerLine, alignmentLine, [],
      "### Slots".toList, [], headerLine, alignmentLine, [],
      "### Exposes".toList, [], headerLine, alignmentLine, []]

theorem buttonPage_eq :
    buttonPage = canonicalPage "Button 按钮".toList buttonRows 1 1 := by
  decide +kernel

theorem buttonPage_component :
    ∃ component,
      Assembly.component "button".toList buttonPage .default =
        .ok component ∧
      component.tag = "y-button".toList ∧
      component.props.map Property.name =
        ["type".toList, "button-size".toList] ∧
      component.props.map Property.default =
        [some "primary".toList, none] ∧
      component.events = [] := by
  have named :
      Text.words (FrontMatter.unquote (Text.trim "Button 按钮".toList)) =
        "Button".toList :: ["按钮".toList] := by
    decide +kernel
  have heading : ParseOptions.default.apiHeading = "API".toList :=
    rfl
  obtain ⟨component, assembled, tag_eq, props_eq, events_eq, -⟩ :=
    component_canonicalPage "button".toList buttonRows 1 1
      (by decide +kernel) named heading (by decide +kernel)
  refine ⟨component, buttonPage_eq ▸ assembled, ?_, ?_, ?_, events_eq⟩
  · rw [tag_eq]
    decide +kernel
  · rw [props_eq]
    decide +kernel
  · rw [props_eq]
    decide +kernel

end Assembly

end ComponentDocs
