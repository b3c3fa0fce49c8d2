import ComponentDocs.Proofs.Assembly.Entities
import ComponentDocs.Proofs.Page.Columns
import ComponentDocs.Proofs.Page.FrontMatter

/-!
Pages with a table in the API block. Cells are found by the headers they stand
under, the preferred header first, so that the order of the columns does not
count where the table is read on its own.
-/

namespace ComponentDocs.Assembly

open Page
open Markdown (IsEnding TakesTable headings)

/-! ## Alike rows -/

section Alike

variable {row other : Row} (alike : row.Alike other)

include alike

theorem entityName?_of_alike : entityName? row = entityName? other := by
  rw [entityName?, entityName?, alike.cellUnder?_eq]

theorem cellText?_of_alike (headers : List Text) :
    cellText? row headers = cellText? other headers := by
  rw [cellText?, cellText?, alike.cellUnder?_eq]

theorem typeOfRow_of_alike : typeOfRow row = typeOfRow other := by
  rw [typeOfRow, typeOfRow, alike.cellUnder?_eq]

theorem property?_of_alike : property? row = property? other := by
  rw [property?, property?, entityName?_of_alike alike,
    cellText?_of_alike alike, typeOfRow_of_alike alike, defaultOfRow?,
    alike.cellUnder?_eq, ← defaultOfRow?]

theorem event?_of_alike : event? row = event? other := by
  rw [event?, event?, entityName?_of_alike alike, cellText?_of_alike alike,
    typeOfRow_of_alike alike]

theorem slot?_of_alike : slot? row = slot? other := by
  rw [slot?, slot?, entityName?_of_alike alike, cellText?_of_alike alike,
    typeOfRow_of_alike alike]

theorem method?_of_alike : method? row = method? other := by
  rw [method?, method?, entityName?_of_alike alike, cellText?_of_alike alike,
    typeOfRow_of_alike alike]

theorem isRepeatedHeader_of_alike :
    isRepeatedHeader row = isRepeatedHeader other := by
  rw [isRepeatedHeader, isRepeatedHeader, alike.cellUnder?_eq]

end Alike

theorem entityRows_alike {rows others : List Row}
    (alike : List.Forall₂ Row.Alike rows others) :
    List.Forall₂ Row.Alike (entityRows rows) (entityRows others) := by
  unfold entityRows
  induction alike with
  | nil =>
      exact .nil
  | cons rowAlike _ inductionHypothesis =>
      rw [List.filter_cons, List.filter_cons, rowAlike.isSeparator_eq,
        isRepeatedHeader_of_alike rowAlike]
      split
      · exact .cons rowAlike inductionHypothesis
      · exact inductionHypothesis

/-- Alike rows give the same entities. -/
theorem collect_of_alike {α : Type} (name : α → Text) {entity? : Row → Option α}
    (same : ∀ {row other : Row}, row.Alike other → entity? row = entity? other)
    {rows others : List Row} (alike : List.Forall₂ Row.Alike rows others) :
    collect name entity? rows = collect name entity? others := by
  have sameItems : rows.filterMap entity? = others.filterMap entity? := by
    induction alike with
    | nil =>
        rfl
    | cons rowAlike _ inductionHypothesis =>
        rw [List.filterMap_cons, List.filterMap_cons, same rowAlike,
          inductionHypothesis]
  rw [collect, collect, sameItems]

/-! ## Places for tables -/

/-- A place in the API block for a table: between two lines, of the page and of
the block on its own, below the introduction. In a section that lists entities
no table is open above it, and the first line below it that is not blank has no
pipe. -/
structure TakesColumns (table : Text) (options : ParseOptions)
    (above below lead rest : Text) : Prop where
  inPage : TakesTable above table below
  introduced : ∃ heading,
    (headings (above ++ (table ++ below))).find?
        (fun heading => heading.level != 1) = some heading ∧
      heading.start ≤ above.length
  inApi :
    sectionAround? above table below options.apiHeading = some (lead, rest)
  inBlock : TakesTable lead table rest
  alone : ∀ (kind : EntityKind) (front tail : Text),
    sectionAround? lead table rest kind.sectionName = some (front, tail) →
      endsInTable .default (visibleLines front) = false ∧
        ∀ line, (visibleLines tail).head? = some line → '|' ∉ line

section Reorder

variable {height : Nat} {table : ColumnTable height}
variable {ending above below lead rest : Text} {options : ParseOptions}
variable (isEnding : IsEnding ending)
  (markers : options.proseMarkers = TableOptions.defaultMarkers)
  (takes : TakesColumns (table.text ending) options above below lead rest)
  (columns : List (Column height)) (perm : columns.Perm table.columns)

include isEnding markers takes

/-- In another order of the columns every section has alike rows. -/
theorem sectionRows_reorder (kind : EntityKind) :
    List.Forall₂ Row.Alike
      (sectionRows options (above ++ (table.text ending ++ below))
        kind.sectionName)
      (sectionRows options
        (above ++ ((table.reorder columns perm).text ending ++ below))
        kind.sectionName) := by
  have inApiReordered :
      sectionAround? above ((table.reorder columns perm).text ending) below
        options.apiHeading = some (lead, rest) :=
    (table.sectionAround?_reorder columns perm isEnding takes.inPage _).trans
      takes.inApi
  have defaults : options.tableOptions = .default :=
    congrArg TableOptions.mk markers
  apply entityRows_alike
  rw [sectionText, sectionText, defaults, table.block?_text takes.inApi,
    (table.reorder columns perm).block?_text inApiReordered]
  dsimp only
  cases around :
      sectionAround? lead (table.text ending) rest kind.sectionName with
  | none =>
      rw [table.block?_reorder_of_not_around columns perm isEnding
        takes.inBlock around]
      exact List.forall₂_same.mpr fun row _ => .refl row
  | some parts =>
      obtain ⟨front, tail⟩ := parts
      have aroundReordered :
          sectionAround? lead ((table.reorder columns perm).text ending) rest
            kind.sectionName = some (front, tail) :=
        (table.sectionAround?_reorder columns perm isEnding takes.inBlock
          _).trans around
      obtain ⟨apart, stopped⟩ := takes.alone kind front tail around
      rw [table.block?_text around,
        (table.reorder columns perm).block?_text aroundReordered]
      exact table.readTable_reorder columns perm isEnding
        (startsLine_of_sectionAround? takes.inBlock.starts around)
        (endsLine_of_sectionAround? takes.inBlock.ends around) apart stopped

theorem ofParts_reorder (slug : Text) (front : FrontMatter) (name : Text) :
    ofParts slug options front
        (above ++ ((table.reorder columns perm).text ending ++ below)) name =
      ofParts slug options front (above ++ (table.text ending ++ below))
        name := by
  have sameIntroduction := table.introduction?_reorder columns perm isEnding
    takes.inPage takes.introduced
  have rows := sectionRows_reorder isEnding markers takes columns perm
  have attributes := collect_of_alike Property.name property?_of_alike
    (rows .property)
  have events := collect_of_alike Event.name event?_of_alike (rows .event)
  have slots := collect_of_alike Slot.name slot?_of_alike (rows .slot)
  have exposes := collect_of_alike Method.name method?_of_alike (rows .method)
  simp only [EntityKind.sectionName] at attributes events slots exposes
  rw [ofParts, ofParts, sameIntroduction, attributes, events, slots, exposes]

end Reorder

/-- The order of the columns of a table in the API block does not count: with
its columns in any order the page gives the same component, or the same
failure. -/
theorem component_reorder {slug head above below lead rest ending : Text}
    {options : ParseOptions} {front : FrontMatter} {height : Nat}
    {table : ColumnTable height} (isEnding : IsEnding ending)
    (markers : options.proseMarkers = TableOptions.defaultMarkers)
    (parts :
      FrontMatter.read (head ++ (above ++ (table.text ending ++ below))) =
        .ok (front, above ++ (table.text ending ++ below)))
    (takes : TakesColumns (table.text ending) options above below lead rest)
    (columns : List (Column height)) (perm : columns.Perm table.columns) :
    Assembly.component slug
        (head ++ (above ++ ((table.reorder columns perm).text ending ++ below)))
        options =
      Assembly.component slug
        (head ++ (above ++ (table.text ending ++ below))) options := by
  have feed : above.getLast? = some '\n' :=
    takes.inPage.starts.resolve_left (ne_nil_of_sectionAround? takes.inApi)
  have partsReordered := FrontMatter.read_append feed parts
    ((table.reorder columns perm).text ending ++ below)
  simp only [Assembly.component, parts, partsReordered, bind, Except.bind,
    ofParts_reorder isEnding markers takes columns perm]

/-! ## A panel with three columns -/

def panelHead : Text :=
  "---\ntitle: Panel\n---\n".toList

/-- Two properties, one of them without a default. -/
def panelTable : ColumnTable 2 where
  columns :=
    [{ header := "Name".toList
       mark := "---".toList
       cells := fun | 0 => "size".toList | 1 => "color".toList },
      { header := "Type".toList
        mark := ":-:".toList
        cells := fun | 0 => "number".toList | 1 => "a \\| b".toList },
      { header := "Default".toList
        mark := ['-']
        cells := fun | 0 => [] | 1 => "a".toList }]
  written := by decide +kernel
  unreturned := by decide +kernel
  distinct := by decide +kernel
  named := by decide +kernel
  headed := by decide +kernel
  aligned := by decide +kernel
  plain := by decide +kernel

/-- The columns of a table from the last to the first. -/
def reversed {height : Nat} (table : ColumnTable height) :
    ColumnTable height :=
  table.reorder table.columns.reverse (List.reverse_perm _)

/-- The API block of a panel above its table, which follows a line of text. -/
def panelAbove : Text :=
  "## API\n### Attributes\nSet these:\n".toList

/-- The text of the API block above the table. -/
def panelLead : Text :=
  "### Attributes\nSet these:\n".toList

def panelComponent : Component :=
  { Component.ofTag "y-panel".toList with
    props :=
      [{ name := "size".toList
         description := none
         type := TypeExpression.ofText "number".toList
         default := none },
        { name := "color".toList
          description := none
          type := TypeExpression.ofText "a \\| b".toList
          default := some "a".toList }] }

theorem panel_takesColumns :
    TakesColumns (panelTable.text ['\n']) .default panelAbove ['\n']
      panelLead [] where
  inPage :=
    { starts := .inr (by decide)
      ends := .inr ⟨['\n'], [], .inl rfl, rfl⟩
      kept := .inl <|
        .of_paragraph
          (show (Markdown.openAtEnd panelAbove).leaf =
            .paragraph [⟨22, "Set these:".toList⟩] by decide +kernel)
          rfl (by decide)
      apart := by decide +kernel }
  introduced := ⟨⟨2, "API".toList, 0, 7⟩, by decide +kernel⟩
  inApi := by decide +kernel
  inBlock :=
    { starts := .inr (by decide)
      ends := .inl rfl
      kept := .inr (by decide +kernel)
      apart := by decide +kernel }
  alone := by
    intro kind front tail around
    have onlyAttributes :
        sectionAround? panelLead (panelTable.text ['\n']) []
            kind.sectionName =
          if kind = .property then some ("Set these:\n".toList, [])
          else none := by
      cases kind <;> decide +kernel
    rw [onlyAttributes, Option.ite_none_right_eq_some, Option.some.injEq,
      Prod.mk.injEq] at around
    obtain ⟨-, rfl, rfl⟩ := around
    exact ⟨by decide +kernel, by decide +kernel⟩

/-- The default comes first, and its cell in the first row is empty. -/
theorem panel_reversed :
    Assembly.component "panel".toList
        (panelHead ++
          (panelAbove ++ ((reversed panelTable).text ['\n'] ++ ['\n'])))
        .default =
      .ok panelComponent :=
  (component_reorder (.inl rfl) rfl
    (show _ = Except.ok (⟨[(titleKey, "Panel".toList)]⟩, _) by decide +kernel)
    panel_takesColumns _ (List.reverse_perm _)).trans (by decide +kernel)

/-! ## Orders that count -/

/-- A table of a panel with the lines above and below it in the section of its
properties. -/
structure PropertyTable where
  height : Nat
  table : ColumnTable height
  above : Text
  below : Text

namespace PropertyTable

/-- The names and types that the panel lists with a table. -/
def listed (sample : PropertyTable) (table : Text) :
    Except Failure (List (Text × Text)) :=
  (Assembly.component "panel".toList
    (panelHead ++ ("## API\n\n### Attributes\n\n".toList ++
      sample.above ++ (table ++ sample.below))) .default).map
    fun component => component.props.map fun property =>
      (property.name, property.type.raw)

/-- Whether the panel lists the same with the columns in another order. -/
def IsSilent (sample : PropertyTable) : Prop :=
  sample.listed ((reversed sample.table).text ['\n']) =
    sample.listed (sample.table.text ['\n'])

instance (sample : PropertyTable) : Decidable sample.IsSilent :=
  inferInstanceAs (Decidable (_ = _))

def colorTable : ColumnTable 1 where
  columns :=
    [{ header := "Name".toList
       mark := "---".toList
       cells := fun _ => "color".toList },
      { header := "Type".toList
        mark := "---".toList
        cells := fun _ => "string".toList }]
  written := by decide +kernel
  unreturned := by decide +kernel
  distinct := by decide +kernel
  named := by decide +kernel
  headed := by decide +kernel
  aligned := by decide +kernel
  plain := by decide +kernel

/-- The rows below a blank line belong to the table above it. -/
def belowTable : PropertyTable where
  height := 1
  table := colorTable
  above := "| Name | Type |\n| --- | --- |\n| size | number |\n\n".toList
  below := []

/-- The row below a blank line belongs to the table above it. -/
def aboveRow : PropertyTable where
  height := 1
  table := colorTable
  above := []
  below := "\n\nsize | number\n".toList

def alone : PropertyTable where
  height := 2
  table := panelTable
  above := []
  below := []

/-- The lines of a table without the outer pipes. -/
def openText {height : Nat} (table : ColumnTable height) : Text :=
  Text.join ['\n'] <|
    (table.header :: table.marks :: table.bodies).map fun row =>
      Text.join " | ".toList row.cells

end PropertyTable

open PropertyTable in
/-- The header row of a second table in a section is a row of the first one, and
its columns are read in their order. A row below a table counts as well, and so
do the outer pipes of its lines. -/
theorem colorTable_isOrdered :
    belowTable.listed (colorTable.text ['\n']) =
      .ok [("size".toList, "number".toList),
        ("color".toList, "string".toList)] ∧
    belowTable.listed ((reversed colorTable).text ['\n']) =
      .ok [("size".toList, "number".toList), ("type".toList, "Name".toList),
        ("string".toList, "color".toList)] ∧
    ¬ aboveRow.IsSilent ∧
    alone.listed (openText (reversed panelTable)) ≠
      alone.listed (openText panelTable) := by
  refine ⟨by decide +kernel, by decide +kernel, by decide +kernel,
    by decide +kernel⟩

end ComponentDocs.Assembly
