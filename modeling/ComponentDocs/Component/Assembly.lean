import ComponentDocs.Component.Basic
import ComponentDocs.Component.DefaultText
import ComponentDocs.Component.Name
import ComponentDocs.Page.FrontMatter
import ComponentDocs.Page.Section
import ComponentDocs.Page.Table

/-!
One page in, one component out.

The front matter names the component; the sections of the API block list its
properties, events, slots and methods in tables. A section without a usable
table is empty. Of two rows that name the same entity the later one counts, in
the place of the earlier.
-/

namespace ComponentDocs

open Page

/-- How pages are read. -/
structure ParseOptions where
  componentPrefix : Text
  docBaseUrl : Option Text
  apiHeading : Text
  proseMarkers : List Text
deriving DecidableEq, Repr

namespace ParseOptions

def default : ParseOptions where
  componentPrefix := "y".toList
  docBaseUrl := none
  apiHeading := "API".toList
  proseMarkers := TableOptions.defaultMarkers

def tableOptions (options : ParseOptions) : TableOptions :=
  ⟨options.proseMarkers⟩

end ParseOptions

namespace Assembly

/-! ## Headers and sections -/

/-- The headers of the name column, the preferred first. -/
def nameHeaders : List Text :=
  ["Name", "属性名", "名称", "事件名", "插槽名", "方法名", "参数"].map
    String.toList

def descriptionHeaders : List Text :=
  ["Description", "说明", "描述"].map String.toList

def typeHeaders : List Text :=
  ["Type", "类型", "回调参数", "作用域参数"].map String.toList

def defaultHeaders : List Text :=
  ["Default", "默认值"].map String.toList

def attributesSection : Text := "Attributes".toList

def eventsSection : Text := "Events".toList

def slotsSection : Text := "Slots".toList

def exposesSection : Text := "Exposes".toList

/-- Whether a row repeats the header in its name column. -/
def isRepeatedHeader (row : Row) : Bool :=
  match row.cellUnder? nameHeaders with
  | some (header, value) => Text.sameIgnoringCase (Text.trim value) header
  | none => false

/-- The rows of a table that may name an entity. -/
def entityRows (rows : List Row) : List Row :=
  rows.filter fun row => !row.isSeparator && !isRepeatedHeader row

def sectionRows (options : ParseOptions) (body name : Text) : List Row :=
  entityRows <|
    readTable options.tableOptions (sectionText body options.apiHeading name)

/-! ## Cells -/

/-- The text without the badges `^[…]`; a badge that is not closed takes the
rest. `inBadge` tells whether the text starts inside one. -/
def stripBadges (inBadge : Bool) : Text → Text
  | [] => []
  | ']' :: rest =>
      if inBadge then stripBadges false rest
      else ']' :: stripBadges false rest
  | '^' :: '[' :: rest => stripBadges true rest
  | character :: rest =>
      if inBadge then stripBadges true rest
      else character :: stripBadges false rest

/-- The name that a cell gives an entity: without back-ticks and badges, the
first of slash alternatives, hyphenated. -/
def nameOfCell (raw : Text) : Text :=
  let cleaned := stripBadges false (raw.filter (· != TypeExpression.tick))
  Name.kebab (cleaned.takeWhile (· != '/'))

/-- The name of the entity in a row, unless it is empty. -/
def entityName? (row : Row) : Option Text :=
  match row.cellUnder? nameHeaders with
  | some (_, raw) =>
      let name := nameOfCell raw
      if name.isEmpty then none else some name
  | none => none

/-- The trimmed cell under one of the headers, unless it is empty. -/
def cellText? (row : Row) (headers : List Text) : Option Text :=
  match row.cellUnder? headers with
  | some (_, raw) =>
      let value := Text.trim raw
      if value.isEmpty then none else some value
  | none => none

/-- The type in a row; the empty expression when there is no type column. -/
def typeOfRow (row : Row) : TypeExpression :=
  match row.cellUnder? typeHeaders with
  | some (_, raw) => TypeExpression.ofText raw
  | none => TypeExpression.ofText []

def defaultOfRow? (row : Row) : Option Text :=
  (row.cellUnder? defaultHeaders).bind fun (_, raw) => DefaultText.ofCell? raw

/-! ## Entities -/

def property? (row : Row) : Option Property :=
  (entityName? row).map fun name =>
    { name
      description := cellText? row descriptionHeaders
      type := typeOfRow row
      default := defaultOfRow? row }

def event? (row : Row) : Option Event :=
  (entityName? row).map fun name =>
    ⟨name, cellText? row descriptionHeaders, typeOfRow row⟩

def slot? (row : Row) : Option Slot :=
  (entityName? row).map fun name =>
    ⟨name, cellText? row descriptionHeaders, typeOfRow row⟩

/-- The signature that the one-line form of a type writes, if any. -/
def signatureOf (type : TypeExpression) : Signature :=
  (Signature.ofText? type.display).getD .empty

def method? (row : Row) : Option Method :=
  (entityName? row).map fun name =>
    let type := typeOfRow row
    ⟨name, cellText? row descriptionHeaders, type, signatureOf type⟩

/-- Put an item into a list, in the place of the first one with its name. -/
def upsert {α : Type} (name : α → Text) (item : α) : List α → List α
  | [] => [item]
  | first :: rest =>
      if name first = name item then item :: rest
      else first :: upsert name item rest

/-- The entities that the rows give, each name once. -/
def collect {α : Type} (name : α → Text) (entity? : Row → Option α)
    (rows : List Row) : List α :=
  (rows.filterMap entity?).foldl (fun items item => upsert name item items) []

/-! ## Pages -/

def titleKey : Text := "title".toList

def descriptionKey : Text := "description".toList

def noTitle (slug : Text) : Failure :=
  .parse (slug ++ ": front matter has no title".toList)

/-- The failure of a page whose title has no word. -/
def blankTitle (slug : Text) : Failure :=
  .parse (slug ++ ": title is blank".toList)

/-- The name of the component: the first word of the title. -/
def componentName (slug : Text) (front : FrontMatter) : Except Failure Text :=
  match front.get? titleKey with
  | none => .error (noTitle slug)
  | some title =>
      match Text.words title with
      | [] => .error (blankTitle slug)
      | name :: _ => .ok name

/-- The address of a page below the configured base. -/
def docUrl (options : ParseOptions) (slug : Text) : Option Text :=
  options.docBaseUrl.map fun base =>
    Text.dropEndWhile (· == '/') base ++ ['/'] ++ slug

/-- The component that a page describes, given its front matter, its body and
the name in its title. -/
def ofParts (slug : Text) (options : ParseOptions) (front : FrontMatter)
    (body name : Text) : Component :=
  let rows := sectionRows options body
  { tag := Name.tag name options.componentPrefix
    description := front.get? descriptionKey
    introduction := introduction? body
    docUrl := docUrl options slug
    props := collect Property.name property? (rows attributesSection)
    events := collect Event.name event? (rows eventsSection)
    slots := collect Slot.name slot? (rows slotsSection)
    methods := collect Method.name method? (rows exposesSection) }

def component (slug page : Text) (options : ParseOptions) :
    Except Failure Component := do
  let (front, body) ← FrontMatter.read page
  let name ← componentName slug front
  return ofParts slug options front body name

end Assembly

end ComponentDocs
