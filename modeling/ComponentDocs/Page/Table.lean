import ComponentDocs.Text.Basic

/-!
Tables in the text of a section: rows of cells under the headers of the first
row. A cell may hold a pipe when a backslash stands before it, and keeps the
backslash.
-/

namespace ComponentDocs.Page

/-- How tables are told from prose: a line with one of the markers is never
taken as the header row. -/
structure TableOptions where
  proseMarkers : List Text
deriving DecidableEq, Repr

namespace TableOptions

/-- Narrative connectives of documentation pages. -/
def defaultMarkers : List Text :=
  ["可以", "如果", "例如", "用于", "通过"].map String.toList

def default : TableOptions :=
  ⟨defaultMarkers⟩

def looksLikeProse (options : TableOptions) (line : Text) : Bool :=
  options.proseMarkers.any fun marker =>
    !marker.isEmpty && Text.hasPiece marker line

end TableOptions

/-! ## Cells -/

/-- The private-use character that stands for an escaped pipe while a line is
split. -/
def pipeStand : Char := '\ue000'

/-- The cells of a line, without the outer pipes and without outer blanks. -/
def splitCells (line : Text) : List Text :=
  let row := Text.trim (Text.hidePipes pipeStand line)
  let inner := Text.dropOneEnd '|' (Text.dropOneStart '|' row)
  (inner.splitOn '|').map fun cell =>
    Text.showPipes pipeStand Text.escapedPipe (Text.trim cell)

/-- Whether a cell is an alignment mark such as `---` or `:-:`. -/
def isAlignmentCell (cell : Text) : Bool :=
  let core := Text.dropOneEnd ':' (Text.dropOneStart ':' (Text.trim cell))
  !core.isEmpty && core.all (· == '-')

/-- Whether a line holds nothing but alignment marks. -/
def isAlignmentLine (line : Text) : Bool :=
  (splitCells line).all isAlignmentCell

/-! ## Rows -/

/-- A row: each header with the cell under it, in column order. -/
structure Row where
  cells : List (Text × Text)
deriving DecidableEq, Repr

namespace Row

/-- The row of `values` under `headers`: missing values are empty and extra
ones are dropped. -/
def ofValues : List Text → List Text → Row
  | [], _ => ⟨[]⟩
  | header :: headers, [] =>
      ⟨(header, []) :: (ofValues headers []).cells⟩
  | header :: headers, value :: values =>
      ⟨(header, value) :: (ofValues headers values).cells⟩

def headers (row : Row) : List Text :=
  row.cells.map Prod.fst

def values (row : Row) : List Text :=
  row.cells.map Prod.snd

def cell? (row : Row) (header : Text) : Option Text :=
  (row.cells.find? (fun cell => cell.1 == header)).map Prod.snd

/-- The header and cell of the first of `aliases` that heads a column, up to
ASCII case. -/
def cellUnder? (row : Row) (aliases : List Text) : Option (Text × Text) :=
  aliases.findSome? fun wanted =>
    row.cells.find? fun cell => Text.sameIgnoringCase cell.1 wanted

def isSeparator (row : Row) : Bool :=
  !row.cells.isEmpty && row.values.all isAlignmentCell

end Row

/-! ## Reading -/

def isHeaderLine (options : TableOptions) (line : Text) : Bool :=
  line.contains '|' && !options.looksLikeProse line && !isAlignmentLine line

/-- The lines below the header row, without the alignment line that may come
first. -/
def bodyLines : List Text → List Text
  | [] => []
  | first :: rest => if isAlignmentLine first then rest else first :: rest

/-- The rows of a table whose header row comes first. -/
def rowsOfLines : List Text → List Row
  | [] => []
  | header :: rest =>
      let headers := splitCells header
      if headers.all List.isEmpty then []
      else
        (bodyLines rest).map fun line => Row.ofValues headers (splitCells line)

/-- The trimmed lines of a text that are not blank. -/
def visibleLines (text : Text) : List Text :=
  ((text.splitOn '\n').map Text.trim).filter (!·.isEmpty)

/-- The rows of the first table in a text. There are none when the text has
fewer than three visible lines or no header row. -/
def readTable (options : TableOptions) (text : Text) : List Row :=
  let lines := visibleLines text
  if lines.length < 3 then []
  else
    rowsOfLines <|
      (lines.dropWhile (fun line => !isHeaderLine options line)).takeWhile
        (·.contains '|')

end ComponentDocs.Page
