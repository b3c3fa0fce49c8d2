import ComponentDocs.Text.Basic

/-!
Default values as the cells of a table give them.
-/

namespace ComponentDocs.DefaultText

/-- The mark of a cell without a default value. -/
def noDefault : Text := "—".toList

/-- The quotes around a default value, the first that fits counts. -/
def delimiters : List Char := ['\'', '"', '\x60']

/-- Whether a value stands between two `delimiter` marks. -/
def isDelimited (value : Text) (delimiter : Char) : Bool :=
  2 ≤ value.length && value.head? == some delimiter &&
    value.getLast? == some delimiter

def stripDelimiters (value : Text) : Text :=
  if delimiters.any (isDelimited value) then value.tail.dropLast else value

/-- The default value in a cell: trimmed and without one layer of quotes. An
empty cell and the mark have none. -/
def ofCell? (raw : Text) : Option Text :=
  let value := Text.trim raw
  if value.isEmpty || value == noDefault then none
  else some (stripDelimiters value)

end ComponentDocs.DefaultText
