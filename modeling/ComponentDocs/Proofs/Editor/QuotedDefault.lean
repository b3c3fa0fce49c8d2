import ComponentDocs.Proofs.Assembly.CanonicalPage
import ComponentDocs.Proofs.Editor.Defaults
import ComponentDocs.Proofs.Store.Corpus

/-!
A default between quotes on its way from the table of a page to the document
for editors: one layer of quotes is taken away where the page is assembled, and
none where the corpus is kept, loaded or shown.
-/

namespace ComponentDocs

open Page Markdown

/-! ## Between quotes -/

theorem DefaultText.stripDelimiters_quoted {delimiter : Char}
    (isDelimiter : delimiter ∈ delimiters) (value : Text) :
    stripDelimiters (delimiter :: (value ++ [delimiter])) = value := by
  have delimited :
      isDelimited (delimiter :: (value ++ [delimiter])) delimiter = true := by
    simp [isDelimited, List.getLast?_cons]
  rw [stripDelimiters,
    if_pos (List.any_eq_true.mpr ⟨delimiter, isDelimiter, delimited⟩),
    List.tail_cons, List.dropLast_concat]

namespace Assembly

def stringType : Text := "^[string]".toList

/-- A row of the canonical table for a property of type `^[string]`, with a
`value` between two quotes as its default. -/
structure QuotedRow where
  name : Text
  description : Text
  delimiter : Char
  value : Text
  properName : IsCanonicalCell name
  properDescription : IsCanonicalCell description
  notHeader : Text.sameIgnoringCase name nameHeader = false
  isDelimiter : delimiter ∈ DefaultText.delimiters
  plain : IsPlain value
  unpiped : '|' ∉ value
  fresh : pipeStand ∉ value

namespace QuotedRow

variable (quoted : QuotedRow)

/-- The cell for the default. -/
def cell : Text :=
  quoted.delimiter :: (quoted.value ++ [quoted.delimiter])

theorem isCanonicalCell_cell : IsCanonicalCell quoted.cell := by
  have quotes : ∀ delimiter ∈ DefaultText.delimiters,
      Text.isBlank delimiter = false ∧ delimiter ≠ '\n' ∧ delimiter ≠ '\r' ∧
        delimiter ≠ '|' ∧ delimiter ≠ pipeStand := by
    decide
  obtain ⟨visible, notFeed, notReturn, notPipe, notStand⟩ :=
    quotes quoted.delimiter quoted.isDelimiter
  have absent {character : Char} (notQuote : quoted.delimiter ≠ character)
      (notInside : character ∉ quoted.value) : character ∉ quoted.cell := by
    simp [cell, notQuote.symm, notInside]
  refine ⟨?_, ⟨absent notFeed quoted.plain.noFeed,
    absent notReturn quoted.plain.noReturn⟩, absent notStand quoted.fresh,
    .of_not_mem (absent notPipe quoted.unpiped)⟩
  apply Text.trim_eq_self
  · rintro first ⟨⟩
    exact visible
  · intro last isLast
    rw [cell, ← List.cons_append, List.getLast?_concat] at isLast
    exact Option.some.inj isLast ▸ visible

/-- The row as it stands in the table. -/
def row : CanonicalRow where
  name := quoted.name
  description := quoted.description
  type := stringType
  default := quoted.cell
  proper := by
    simp only [List.forall_mem_cons]
    exact ⟨quoted.properName, quoted.properDescription, by decide +kernel,
      quoted.isCanonicalCell_cell, by simp⟩
  notHeader := quoted.notHeader
  notAligned := by
    have notMark : isAlignmentCell stringType = false := by
      decide +kernel
    simp [notMark]

/-- The cell gives the value without its quotes, be it empty, the mark for no
default, or quoted itself. -/
theorem ofCell?_cell : DefaultText.ofCell? quoted.cell = some quoted.value := by
  have visible : quoted.cell.isEmpty = false := rfl
  have notMark : (quoted.cell == DefaultText.noDefault) = false := by
    apply beq_false_of_ne
    intro isMark
    have sameLength := congrArg List.length isMark
    simp [cell, DefaultText.noDefault] at sameLength
  rw [DefaultText.ofCell?, quoted.isCanonicalCell_cell.trimmed, visible,
    notMark, if_neg (by simp), cell,
    DefaultText.stripDelimiters_quoted quoted.isDelimiter]

/-- The property that the row describes under a name. -/
def property (name : Text) : Property where
  name
  description := quoted.row.description?
  type := .ofText stringType
  default := some quoted.value

theorem property?_row {name : Text}
    (named : quoted.row.entityName? = some name) :
    quoted.row.property? = some (quoted.property name) := by
  have default_eq :
      DefaultText.ofCell? quoted.row.default = some quoted.value :=
    quoted.ofCell?_cell
  rw [CanonicalRow.property?, named, default_eq]
  rfl

end QuotedRow

/-! ## The last row of a name -/

/-- The property of a quoted row is kept when no later row has its name. -/
theorem QuotedRow.mem_latest (quoted : QuotedRow) {name : Text}
    {rows before after : List CanonicalRow}
    (split : rows = before ++ quoted.row :: after)
    (named : quoted.row.entityName? = some name)
    (last : ∀ later ∈ after, later.entityName? ≠ some name) :
    quoted.property name ∈
        latest Property.name (rows.filterMap CanonicalRow.property?) ∧
      ∀ kept ∈ latest Property.name (rows.filterMap CanonicalRow.property?),
        kept.name = name → kept = quoted.property name := by
  have items_eq :
      rows.filterMap CanonicalRow.property? =
        before.filterMap CanonicalRow.property? ++
          quoted.property name ::
            after.filterMap CanonicalRow.property? := by
    rw [split, List.filterMap_append,
      List.filterMap_cons_some (quoted.property?_row named)]
  rw [items_eq]
  apply mem_latest_of_last
  intro later member same
  obtain ⟨row, isRow, described⟩ := List.mem_filterMap.mp member
  obtain ⟨rowName, isNamed, rfl⟩ := Option.map_eq_some_iff.mp described
  exact last row isRow (isNamed.trans (congrArg some same))

end Assembly

/-! ## In the document for editors -/

/-- The property of a name is there, and its default is a text. -/
def Component.StoresDefault (component : Component) (name value : Text) :
    Prop :=
  (∃ property ∈ component.props, property.name = name) ∧
    ∀ property ∈ component.props, property.name = name →
      property.default = some value

namespace Editor

/-- The attribute of a name is there, and its default is a text. -/
def Element.GivesText (element : Element) (name value : Text) : Prop :=
  (∃ item ∈ element.attributes, item.name = name) ∧
    ∀ item ∈ element.attributes, item.name = name →
      item.default = some (.text value)

theorem Element.GivesText.reread {element : Element} {name value : Text}
    (gives : element.GivesText name value) :
    element.reread.GivesText name value := by
  obtain ⟨⟨item, member, named⟩, only⟩ := gives
  refine ⟨⟨item.reread, List.mem_map_of_mem member, named⟩, ?_⟩
  intro other isOther sameName
  obtain ⟨source, isSource, rfl⟩ := List.mem_map.mp isOther
  have default_eq := only source isSource sameName
  rw [Attribute.reread, default_eq]
  rfl

namespace WebTypes

/-- The document has an element for a component, in which the attribute of a
name has a text as its default. -/
def GivesText (document : WebTypes) (component : Component)
    (name value : Text) : Prop :=
  ∃ element ∈ document.contributions.html.elements,
    element.name = component.tag ∧
      element.attributes.map Attribute.name =
        component.props.map Property.name ∧
      element.GivesText name value

theorem GivesText.reread {document : WebTypes} {component : Component}
    {name value : Text} (gives : document.GivesText component name value) :
    document.reread.GivesText component name value := by
  obtain ⟨element, member, tag_eq, names_eq, gives⟩ := gives
  refine ⟨element.reread, List.mem_map_of_mem member, tag_eq, ?_,
    gives.reread⟩
  rw [← names_eq, Element.reread, List.map_map]
  rfl

/-- The document of a corpus gives a text, and so does what is read from the
JSON text of the document. -/
def ShowsText (corpus : Corpus) (library : Text) (component : Component)
    (name value : Text) : Prop :=
  (ofCorpus corpus library).GivesText component name value ∧
    ∃ read,
      (Json.read? (ofCorpus corpus library).toJson.pretty).bind ofJson? =
          some read ∧
        read.GivesText component name value

theorem showsText_of_mem {corpus : Corpus} {component : Component}
    (library : Text) {name value : Text}
    (member : component ∈ corpus.components)
    (gives : (Element.ofComponent component).GivesText name value) :
    ShowsText corpus library component name value := by
  have inDocument :
      (ofCorpus corpus library).GivesText component name value := by
    refine ⟨Element.ofComponent component, ?_, rfl, ?_, gives⟩
    · obtain ⟨components, perm, sorted⟩ := exists_perm_elements corpus
      change _ ∈ elements corpus
      rw [sorted]
      exact List.mem_map_of_mem (perm.mem_iff.mpr member)
    · rw [Element.ofComponent, List.map_map]
      rfl
  have standard := isStandard_ofCorpus corpus library
  refine ⟨inDocument, _, ?_, inDocument.reread⟩
  rw [Json.read?_pretty (isReading.isWritten _ standard), Option.bind_some,
    isReading.decode?_encode _ standard]

end WebTypes

end Editor

namespace Assembly

open Editor

theorem ofText_stringType (value : Text) :
    DefaultValue.ofText value (.ofText stringType) = .text value := by
  have notBoolean :
      (TypeExpression.ofText stringType).isSimple "boolean".toList = false := by
    decide +kernel
  have notNumber :
      (TypeExpression.ofText stringType).isSimple "number".toList = false := by
    decide +kernel
  rw [DefaultValue.ofText, notBoolean, notNumber]
  rfl

theorem component_eq_ofParts (slug : Text) {title name : Text}
    {others : List Text} (options : ParseOptions)
    (rows : EntityKind → List CanonicalRow) (gap ends : Nat)
    (single : '\n' ∉ title)
    (titled :
      Text.words (FrontMatter.unquote (Text.trim title)) = name :: others) :
    Assembly.component slug (canonicalPage title rows gap ends) options =
      .ok (ofParts slug options
        ⟨[(titleKey, FrontMatter.unquote (Text.trim title))]⟩
        (canonicalBody rows gap ends) name) := by
  rw [canonicalPage,
    component_of_read (FrontMatter.read_block isKey_titleKey single _),
    componentName_of_title slug titled]
  rfl

/-- The properties of a canonical page are those of its rows. -/
theorem props_ofParts (slug : Text) {options : ParseOptions}
    (rows : EntityKind → List CanonicalRow) (gap ends : Nat)
    (heading : options.apiHeading = "API".toList)
    (plain : ∀ marker ∈ options.proseMarkers, marker ≠ [] →
      Text.hasPiece marker headerLine = false)
    (fields : FrontMatter) (name : Text) :
    (ofParts slug options fields (canonicalBody rows gap ends) name).props =
      latest Property.name
        ((rows .property).filterMap CanonicalRow.property?) := by
  have attributes :
      sectionRows options (canonicalBody rows gap ends) attributesSection =
        (rows .property).map CanonicalRow.toRow :=
    sectionRows_canonicalBody rows gap ends heading
      (looksLikeProse_headerLine plain) .property
  dsimp only [ofParts]
  rw [attributes]
  exact CanonicalRow.collect_map CanonicalRow.property?_toRow _

/-- The attribute of a quoted row shows the value as a text, since its type is
neither a boolean nor a number. -/
theorem QuotedRow.givesText_ofComponent (quoted : QuotedRow) {name : Text}
    {component : Component} (member : quoted.property name ∈ component.props)
    (only : ∀ kept ∈ component.props, kept.name = name →
      kept = quoted.property name) :
    (Element.ofComponent component).GivesText name quoted.value := by
  refine ⟨⟨_, List.mem_map_of_mem member, rfl⟩, ?_⟩
  intro item isItem named
  obtain ⟨kept, isKept, rfl⟩ := List.mem_map.mp isItem
  rw [only kept isKept named]
  exact congrArg some (ofText_stringType quoted.value)

/-- One layer of quotes is taken away, and no other: the component of a
canonical page stores the value between the quotes, and the document for editors
gives it as a text, from every corpus that holds the component and from what is
loaded where that corpus was saved. -/
theorem component_quotedDefault (slug : Text) {title tagName : Text}
    {others : List Text} {options : ParseOptions}
    (rows : EntityKind → List CanonicalRow) (gap ends : Nat)
    (single : '\n' ∉ title)
    (titled :
      Text.words (FrontMatter.unquote (Text.trim title)) = tagName :: others)
    (heading : options.apiHeading = "API".toList)
    (plain : ∀ marker ∈ options.proseMarkers, marker ≠ [] →
      Text.hasPiece marker headerLine = false)
    (quoted : QuotedRow) {name : Text} {before after : List CanonicalRow}
    (split : rows .property = before ++ quoted.row :: after)
    (named : quoted.row.entityName? = some name)
    (last : ∀ later ∈ after, later.entityName? ≠ some name) :
    ∃ component,
      Assembly.component slug (canonicalPage title rows gap ends) options =
        .ok component ∧
      component.StoresDefault name quoted.value ∧
      ∀ corpus library, component ∈ corpus.components →
        WebTypes.ShowsText corpus library component name quoted.value ∧
        (corpus.generatedAt.isValid = true →
          ∀ (store : Store) (platform : Platform) (disk : Files.Disk),
            ((store.save platform corpus).run disk).1 = .ok () →
              ∃ loaded,
                (store.load.run
                    ((store.save platform corpus).run disk).2).1 =
                    .ok loaded ∧
                  WebTypes.ShowsText loaded library component name
                    quoted.value) := by
  refine ⟨_, component_eq_ofParts slug options rows gap ends single titled, ?_⟩
  have kept := quoted.mem_latest split named last
  rw [← props_ofParts slug rows gap ends heading plain
    ⟨[(titleKey, FrontMatter.unquote (Text.trim title))]⟩ tagName] at kept
  generalize ofParts slug options _ (canonicalBody rows gap ends) tagName =
    component at kept ⊢
  obtain ⟨member, only⟩ := kept
  have gives := quoted.givesText_ofComponent member only
  refine ⟨⟨⟨_, member, rfl⟩, ?_⟩, ?_⟩
  · intro property isProperty isNamed
    rw [only property isProperty isNamed]
    rfl
  · intro corpus library isComponent
    have shows := WebTypes.showsText_of_mem library isComponent gives
    refine ⟨shows, fun valid store platform disk saved =>
      ⟨corpus, ?_, shows⟩⟩
    obtain ⟨place, leads, isCorpus⟩ := Store.read_corpusPath_of_saved saved
    rw [Store.run_load_of_at? leads isCorpus, Store.corpusOfText,
      Store.readCorpus?_corpusText valid]

/-! ## The page of a field -/

/-- The label of a field: by default the mark for no default, in quotes and
between spaces. -/
def labelRow : QuotedRow where
  name := "label".toList
  description := "text".toList
  delimiter := '\x60'
  value := " '—' ".toList
  properName := by
    decide +kernel
  properDescription := by
    decide +kernel
  notHeader := by
    decide +kernel
  isDelimiter := by
    decide
  plain := ⟨by decide +kernel, by decide +kernel⟩
  unpiped := by
    decide +kernel
  fresh := by
    decide +kernel

def fieldRows : EntityKind → List CanonicalRow
  | .property => [labelRow.row]
  | _ => []

def fieldPage : Text :=
  Text.join ['\n'] <|
    ["---", "title: Field", "---", "", "## API", "", "### Attributes", "",
      "| Name | Description | Type | Default |", "| --- | --- | --- | --- |",
      "| label | text | ^[string] | \x60 '—' \x60 |", ""].map
        String.toList ++
    ["### Events".toList, [], headerLine, alignmentLine, [],
      "### Slots".toList, [], headerLine, alignmentLine, [],
      "### Exposes".toList, [], headerLine, alignmentLine, []]

theorem fieldPage_eq :
    fieldPage = canonicalPage "Field".toList fieldRows 1 1 := by
  decide +kernel

def corpusOf (component : Component) : Corpus :=
  ⟨"1.0.0".toList, ⟨2024, 5, 1, 10, 20, 30, 0⟩, [component]⟩

theorem fieldPage_label :
    ∃ component,
      Assembly.component "field".toList fieldPage .default = .ok component ∧
      component.StoresDefault "label".toList " '—' ".toList ∧
      WebTypes.ShowsText (corpusOf component) "y-ui".toList component
        "label".toList " '—' ".toList ∧
      ∃ loaded,
        ((Store.load ⟨"data".toList⟩).run
            ((Store.save ⟨"data".toList⟩ .other (corpusOf component)).run
              Store.dataDisk).2).1 = .ok loaded ∧
          WebTypes.ShowsText loaded "y-ui".toList component "label".toList
            " '—' ".toList := by
  have heading : ParseOptions.default.apiHeading = "API".toList :=
    rfl
  have named : labelRow.row.entityName? = some "label".toList := by
    decide +kernel
  have titled :
      Text.words (FrontMatter.unquote (Text.trim "Field".toList)) =
        ["Field".toList] := by
    decide +kernel
  have split : fieldRows .property = [] ++ labelRow.row :: [] :=
    rfl
  obtain ⟨component, assembled, stores, shown⟩ :=
    component_quotedDefault "field".toList fieldRows 1 1 (by decide +kernel)
      titled heading (by decide +kernel) labelRow split named
      (List.forall_mem_nil _)
  have saved :
      ((Store.save ⟨"data".toList⟩ .other (corpusOf component)).run
        Store.dataDisk).1 = .ok () := by
    rfl
  obtain ⟨shows, reloaded⟩ :=
    shown (corpusOf component) "y-ui".toList (by simp [corpusOf])
  have valid : (corpusOf component).generatedAt.isValid = true :=
    rfl
  exact ⟨component, fieldPage_eq ▸ assembled, stores, shows,
    reloaded valid _ _ _ saved⟩

end Assembly

end ComponentDocs
