import ComponentDocs.Proofs.Assembly.Collect
import ComponentDocs.Proofs.Page.TablePart

/-!
Rows of the canonical table with the columns `Name`, `Description`, `Type` and
`Default`, and the entities that their cells describe.
-/

namespace ComponentDocs.Assembly

open Page Markdown

def nameHeader : Text := "Name".toList

def descriptionHeader : Text := "Description".toList

def typeHeader : Text := "Type".toList

def defaultHeader : Text := "Default".toList

def canonicalHeaders : List Text :=
  [nameHeader, descriptionHeader, typeHeader, defaultHeader]

/-- A cell that reads as it is written: trimmed, on a single line, without the
stand-in for escaped pipes, and with every pipe escaped. -/
structure IsCanonicalCell (cell : Text) : Prop where
  trimmed : Text.trim cell = cell
  plain : IsPlain cell
  fresh : pipeStand ∉ cell
  escaped : Text.PipesEscaped cell

instance (cell : Text) : Decidable (IsCanonicalCell cell) :=
  decidable_of_iff
    (Text.trim cell = cell ∧ ('\n' ∉ cell ∧ '\r' ∉ cell) ∧
      pipeStand ∉ cell ∧ Text.PipesEscaped cell)
    ⟨fun ⟨trimmed, ⟨noFeed, noReturn⟩, fresh, escaped⟩ =>
        ⟨trimmed, ⟨noFeed, noReturn⟩, fresh, escaped⟩,
      fun proper => ⟨proper.trimmed,
        ⟨proper.plain.noFeed, proper.plain.noReturn⟩, proper.fresh,
        proper.escaped⟩⟩

/-- How canonical cells are written: between pipes, with one space on either
side. -/
def writtenCells (cells : List Text) (nonempty : cells ≠ [])
    (proper : ∀ cell ∈ cells, IsCanonicalCell cell) : WrittenRow :=
  .ofCells cells nonempty fun cell member => (proper cell member).escaped

section Written

variable {cells : List Text} {nonempty : cells ≠ []}
  (proper : ∀ cell ∈ cells, IsCanonicalCell cell)

theorem cells_writtenCells :
    (writtenCells cells nonempty proper).cells = cells :=
  WrittenRow.cells_ofCells (fun cell member => (proper cell member).trimmed)
    fun cell member => (proper cell member).fresh

theorem isPiped_writtenCells :
    IsPiped (writtenCells cells nonempty proper).line :=
  isPiped_ofCells fun cell member => (proper cell member).plain

end Written

/-- A row of the canonical table. Its name does not repeat the header, and it
does not consist of alignment marks. -/
structure CanonicalRow where
  name : Text
  description : Text
  type : Text
  default : Text
  proper : ∀ cell ∈ [name, description, type, default], IsCanonicalCell cell
  notHeader : Text.sameIgnoringCase name nameHeader = false
  notAligned : [name, description, type, default].all isAlignmentCell = false

namespace CanonicalRow

variable (row : CanonicalRow)

def cells : List Text :=
  [row.name, row.description, row.type, row.default]

def toRow : Row :=
  ⟨[(nameHeader, row.name), (descriptionHeader, row.description),
    (typeHeader, row.type), (defaultHeader, row.default)]⟩

def written : WrittenRow :=
  writtenCells row.cells (List.cons_ne_nil _ _) row.proper

/-! ## Entities -/

/-- The name that the row gives an entity, unless it is empty. -/
def entityName? : Option Text :=
  let name := nameOfCell row.name
  if name.isEmpty then none else some name

def description? : Option Text :=
  if row.description.isEmpty then none else some row.description

/-- The property that the row describes, if it has a name. -/
def property? : Option Property :=
  row.entityName?.map fun name =>
    { name
      description := row.description?
      type := TypeExpression.ofText row.type
      default := DefaultText.ofCell? row.default }

def event? : Option Event :=
  row.entityName?.map fun name =>
    ⟨name, row.description?, TypeExpression.ofText row.type⟩

def slot? : Option Slot :=
  row.entityName?.map fun name =>
    ⟨name, row.description?, TypeExpression.ofText row.type⟩

def method? : Option Method :=
  row.entityName?.map fun name =>
    ⟨name, row.description?, TypeExpression.ofText row.type,
      signatureOf (TypeExpression.ofText row.type)⟩

/-! ## Columns -/

/-- No header is taken for another. -/
theorem pairwise_canonicalHeaders :
    canonicalHeaders.Pairwise fun left right =>
      Text.sameIgnoringCase left right = false := by
  decide

/-- The cell under a header is found behind those of other headers. -/
theorem cellUnder?_eq {row : Row} {header value : Text}
    (before : List (Text × Text)) {after : List (Text × Text)}
    (cells_eq : row.cells = before ++ (header, value) :: after)
    (apart : ∀ cell ∈ before, Text.sameIgnoringCase cell.1 header = false)
    (others : List Text) :
    row.cellUnder? (header :: others) = some (header, value) := by
  have passed :
      before.find? (fun cell => Text.sameIgnoringCase cell.1 header) =
        none := by
    apply List.find?_eq_none.mpr
    intro cell member
    rw [apart cell member]
    exact Bool.false_ne_true
  have found :
      ((header, value) :: after).find?
          (fun cell => Text.sameIgnoringCase cell.1 header) =
        some (header, value) :=
    List.find?_cons_of_pos (beq_self_eq_true _)
  rw [Row.cellUnder?, List.findSome?_cons, cells_eq, List.find?_append, passed,
    Option.none_or, found]

theorem cellUnder?_nameHeaders :
    row.toRow.cellUnder? nameHeaders = some (nameHeader, row.name) :=
  cellUnder?_eq [] rfl (by simp) _

theorem cellUnder?_descriptionHeaders :
    row.toRow.cellUnder? descriptionHeaders =
      some (descriptionHeader, row.description) := by
  obtain ⟨fromName, -⟩ := List.pairwise_cons.mp pairwise_canonicalHeaders
  apply cellUnder?_eq [(nameHeader, row.name)] rfl
  simp [fromName descriptionHeader]

theorem cellUnder?_typeHeaders :
    row.toRow.cellUnder? typeHeaders = some (typeHeader, row.type) := by
  obtain ⟨fromName, later⟩ := List.pairwise_cons.mp pairwise_canonicalHeaders
  obtain ⟨fromDescription, -⟩ := List.pairwise_cons.mp later
  apply cellUnder?_eq [(nameHeader, row.name),
    (descriptionHeader, row.description)] rfl
  simp [fromName typeHeader, fromDescription typeHeader]

theorem cellUnder?_defaultHeaders :
    row.toRow.cellUnder? defaultHeaders =
      some (defaultHeader, row.default) := by
  obtain ⟨fromName, later⟩ := List.pairwise_cons.mp pairwise_canonicalHeaders
  obtain ⟨fromDescription, last⟩ := List.pairwise_cons.mp later
  obtain ⟨fromType, -⟩ := List.pairwise_cons.mp last
  apply cellUnder?_eq [(nameHeader, row.name),
    (descriptionHeader, row.description), (typeHeader, row.type)] rfl
  simp [fromName defaultHeader, fromDescription defaultHeader,
    fromType defaultHeader]

/-! ## Reading the entities -/

theorem entityName?_toRow :
    Assembly.entityName? row.toRow = row.entityName? := by
  rw [Assembly.entityName?, cellUnder?_nameHeaders]
  rfl

theorem cellText?_toRow :
    cellText? row.toRow descriptionHeaders = row.description? := by
  have trimmed : Text.trim row.description = row.description :=
    (row.proper row.description (by simp)).trimmed
  rw [cellText?, cellUnder?_descriptionHeaders]
  dsimp only
  rw [trimmed]
  rfl

theorem typeOfRow_toRow :
    typeOfRow row.toRow = TypeExpression.ofText row.type := by
  rw [typeOfRow, cellUnder?_typeHeaders]

theorem defaultOfRow?_toRow :
    defaultOfRow? row.toRow = DefaultText.ofCell? row.default := by
  rw [defaultOfRow?, cellUnder?_defaultHeaders]
  rfl

theorem property?_toRow : Assembly.property? row.toRow = row.property? := by
  rw [Assembly.property?, entityName?_toRow, cellText?_toRow, typeOfRow_toRow,
    defaultOfRow?_toRow]
  rfl

theorem event?_toRow : Assembly.event? row.toRow = row.event? := by
  rw [Assembly.event?, entityName?_toRow, cellText?_toRow, typeOfRow_toRow]
  rfl

theorem slot?_toRow : Assembly.slot? row.toRow = row.slot? := by
  rw [Assembly.slot?, entityName?_toRow, cellText?_toRow, typeOfRow_toRow]
  rfl

theorem method?_toRow : Assembly.method? row.toRow = row.method? := by
  rw [Assembly.method?, entityName?_toRow, cellText?_toRow, typeOfRow_toRow]
  rfl

/-- No canonical row is dropped. -/
theorem entityRows_map (rows : List CanonicalRow) :
    entityRows (rows.map CanonicalRow.toRow) = rows.map CanonicalRow.toRow := by
  apply List.filter_eq_self.mpr
  intro read member
  obtain ⟨row, -, rfl⟩ := List.mem_map.mp member
  have notSeparator : row.toRow.isSeparator = false :=
    row.notAligned
  have notRepeated : isRepeatedHeader row.toRow = false := by
    rw [isRepeatedHeader, cellUnder?_nameHeaders]
    dsimp only
    rw [(row.proper row.name (by simp)).trimmed, row.notHeader]
  rw [notSeparator, notRepeated]
  rfl

/-- The entities of the rows, each name in the place of its first row and with
the values of its last row. -/
theorem collect_map {α : Type} {name : α → Text} {entity? : Row → Option α}
    {described? : CanonicalRow → Option α}
    (read : ∀ row, entity? (CanonicalRow.toRow row) = described? row)
    (rows : List CanonicalRow) :
    collect name entity? (rows.map CanonicalRow.toRow) =
      latest name (rows.filterMap described?) := by
  rw [collect_eq_latest, List.filterMap_map]
  congr 1
  exact List.filterMap_congr fun row _ => read row

end CanonicalRow

end ComponentDocs.Assembly
