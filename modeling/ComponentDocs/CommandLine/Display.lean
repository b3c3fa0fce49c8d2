import ComponentDocs.Build.Basic
import ComponentDocs.CommandLine.Style
import ComponentDocs.Query.Json

/-!
Results as text for a reader, and the summary of a build as JSON.
-/

namespace ComponentDocs.CommandLine

def line (text : Text) : Text :=
  text ++ ['\n']

/-! ## Lists -/

def fill (width : Nat) (text : Text) : Text :=
  text ++ List.replicate (width - text.length) ' '

/-- The width of the column of tags: the most bytes that a tag has. -/
def tagWidth (summaries : List Query.Summary) : Nat :=
  (summaries.map fun summary => Text.utf8Length summary.tag).foldl max 0

def summaryLine (colours : Bool) (width : Nat) (summary : Query.Summary) :
    Text :=
  line <|
    Style.green.paint colours (fill width summary.tag) ++ "  ".toList ++
      Style.grey.paint colours (summary.description.getD [])

def summaryLines (colours : Bool) (summaries : List Query.Summary) : Text :=
  summaries.flatMap (summaryLine colours (tagWidth summaries))

def showListing (colours : Bool) (listing : Query.Listing) : Text :=
  (if listing.components.isEmpty then
    line "No components. Run 'uimeta build' first.".toList
  else []) ++ summaryLines colours listing.components

/-- The line that tells how many matches are shown, if not all are. -/
def shownLine (result : Query.SearchResult) : Text :=
  if result.results.length < result.total then
    line <|
      "(".toList ++ Text.ofNat result.results.length ++ " of ".toList ++
        Text.ofNat result.total ++ " matches shown)".toList
  else []

def showSearch (colours : Bool) (keyword : Text)
    (result : Query.SearchResult) : Text :=
  if result.results.isEmpty then
    line ("No components match '".toList ++ keyword ++ "'".toList)
  else summaryLines colours result.results ++ shownLine result

/-! ## Details -/

/-- The title of a section with the number of its entries. -/
def sectionTitle (colours : Bool) (title : String) (count : Nat) : Text :=
  if count = 0 then []
  else
    line <|
      '\n' :: Style.bold.paint colours title.toList ++ " (".toList ++
        Text.ofNat count ++ [')']

def typeSuffix (type : TypeExpression) : Text :=
  if type.display.isEmpty then [] else ": ".toList ++ type.display

def descriptionLine : Option Text → Text
  | some description => line ("      ".toList ++ description)
  | none => []

def entryLines (colours : Bool) (name : Text) (type : TypeExpression)
    (ending : Text) (description : Option Text) : Text :=
  line
    ("  ".toList ++ Style.cyan.paint colours name ++
      Style.grey.paint colours (typeSuffix type) ++ ending) ++
    descriptionLine description

def defaultSuffix : Option Text → Text
  | some value => " = ".toList ++ value
  | none => []

def propertyLines (colours : Bool) (property : Property) : Text :=
  entryLines colours property.name property.type
    (defaultSuffix property.default) property.description

def eventLines (colours : Bool) (event : Event) : Text :=
  entryLines colours event.name event.type [] event.description

def slotLines (colours : Bool) (slot : Slot) : Text :=
  entryLines colours slot.name slot.type [] slot.description

def methodLines (colours : Bool) (method : Method) : Text :=
  entryLines colours method.name method.type [] method.description

def headLines (colours : Bool) (component : Component) : Text :=
  line (Style.boldGreen.paint colours component.tag) ++
    (component.description.map line).getD [] ++
    (component.docUrl.map fun url => line (Style.grey.paint colours url)).getD
      []

/-- The type definition after all sections, if there is one. -/
def definitionLines (colours : Bool) : Option Text → Text
  | some content =>
      line ('\n' :: Style.bold.paint colours "Type definitions".toList) ++
        line content
  | none => []

def showDetail (colours : Bool) (detail : Query.Detail) : Text :=
  let component := detail.component
  headLines colours component ++
    sectionTitle colours "Props" component.props.length ++
    component.props.flatMap (propertyLines colours) ++
    sectionTitle colours "Events" component.events.length ++
    component.events.flatMap (eventLines colours) ++
    sectionTitle colours "Slots" component.slots.length ++
    component.slots.flatMap (slotLines colours) ++
    sectionTitle colours "Methods" component.methods.length ++
    component.methods.flatMap (methodLines colours) ++
    definitionLines colours detail.typeDefinition

/-! ## Builds -/

/-- What a build tells: the corpus, the counts and the path of the corpus. -/
structure BuildSummary where
  corpus : Corpus
  report : Build.Report
  path : Text

namespace BuildSummary

def toJson (summary : BuildSummary) : Json :=
  Json.ofFields [
    ("version".toList, some (.text summary.corpus.version)),
    ("components".toList,
      some (.natural summary.corpus.components.length)),
    ("documents".toList, some (.natural summary.report.documents)),
    ("failures".toList, some (.natural summary.report.failures)),
    ("duplicates".toList, some (.natural summary.report.duplicates)),
    ("corpusPath".toList, some (.text summary.path))]

def warningLine (colours : Bool) (failures : Nat) : Text :=
  if failures = 0 then []
  else
    line <|
      "  ".toList ++ Style.yellow.paint colours "warning:".toList ++ [' '] ++
        Text.ofNat failures ++
        " documents fell back to empty models".toList

def display (colours : Bool) (summary : BuildSummary) : Text :=
  line
    (Style.boldGreen.paint colours "Built".toList ++ [' '] ++
      Text.ofNat summary.corpus.components.length ++
      " components from ".toList ++ Text.ofNat summary.report.documents ++
      " documents (version ".toList ++ summary.corpus.version ++ [')']) ++
    warningLine colours summary.report.failures ++
    line ("  ".toList ++ Style.grey.paint colours summary.path)

end BuildSummary

end ComponentDocs.CommandLine
