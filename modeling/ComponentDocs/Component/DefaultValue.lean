import ComponentDocs.TypeExpression.Rule
import ComponentDocs.Component.DefaultText
import ComponentDocs.Number.Decimal

/-!
Default values typed by the declared type of their property.
-/

namespace ComponentDocs

/-- A default value as an editor shows it. -/
inductive DefaultValue
  | bool (value : Bool)
  | number (value : Binary64)
  | text (content : Text)
deriving DecidableEq, Repr

namespace DefaultValue

/-- Type the text of a default value. A boolean is true for `true` alone; a
number that cannot be read stays a text. -/
def ofText (value : Text) (type : TypeExpression) : DefaultValue :=
  if type.isSimple "boolean".toList then .bool (value == "true".toList)
  else if type.isSimple "number".toList then
    match Binary64.ofText? value with
    | some read => .number read
    | none => .text value
  else .text value

def ofCell? (raw : Text) (type : TypeExpression) : Option DefaultValue :=
  (DefaultText.ofCell? raw).map fun value => ofText value type

end DefaultValue

end ComponentDocs
