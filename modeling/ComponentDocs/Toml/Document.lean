import ComponentDocs.Toml.Basic

/-!
Tables under construction, and the rules on defining a table twice.

A table is implied by a longer header, begun by a dotted key, or stated by a
header of its own. A header may state what is only implied; dotted keys may
extend what dotted keys began; no other table is opened again.
-/

namespace ComponentDocs.Toml

/-- How a table came to be. -/
inductive Origin
  | implied
  | dotted
  | stated
deriving DecidableEq, Repr

/-- What is under a key: a value, a table or a list of tables. -/
inductive Item
  | value (value : Value)
  | table (origin : Origin) (entries : List (Text × Item))
  | rows (rows : List (List (Text × Item)))

/-- The keys of a table with what is under them. -/
abbrev Entries := List (Text × Item)

namespace Entries

def item? (entries : Entries) (key : Text) : Option Item :=
  (entries.find? (fun entry => entry.1 == key)).map Prod.snd

def put (entries : Entries) (key : Text) (item : Item) : Entries :=
  match entries with
  | [] => [(key, item)]
  | entry :: rest =>
      if entry.1 = key then (key, item) :: rest
      else entry :: put rest key item

/-- A change of a table that knows how the table came to be. -/
abbrev Change := Origin → Entries → Option Entries

/-- Change the table that a path leads to, through the last of each list of
tables. Tables that are missing are created as `created`; dotted keys lead
through no stated table. -/
def within (created : Origin) (change : Change) (origin : Origin) :
    List Text → Entries → Option Entries
  | [], entries => change origin entries
  | key :: path, entries =>
      match item? entries key with
      | none =>
          (within created change created path []).map fun inner =>
            put entries key (.table created inner)
      | some (.table found inner) =>
          if created = .dotted && found = .stated then none
          else
            (within created change found path inner).map fun changed =>
              put entries key (.table found changed)
      | some (.rows rows) =>
          match rows.getLast? with
          | none => none
          | some last =>
              (within created change .stated path last).map fun changed =>
                put entries key (.rows (rows.dropLast ++ [changed]))
      | some (.value _) => none

def addValue (key : Text) (value : Value) (entries : Entries) :
    Option Entries :=
  match item? entries key with
  | none => some (put entries key (.value value))
  | some _ => none

/-- Put a value under a dotted key of a table. -/
def addDotted (path : List Text) (key : Text) (value : Value)
    (entries : Entries) : Option Entries :=
  if path.isEmpty then addValue key value entries
  else
    within .dotted
      (fun origin inner =>
        if origin = .dotted then addValue key value inner else none)
      .stated path entries

def openTable (path : List Text) (key : Text) (entries : Entries) :
    Option Entries :=
  within .implied
    (fun _ inner =>
      match item? inner key with
      | none => some (put inner key (.table .stated []))
      | some (.table .implied found) =>
          some (put inner key (.table .stated found))
      | some _ => none)
    .stated path entries

/-- Begin a new row of a list of tables by its header. -/
def openRow (path : List Text) (key : Text) (entries : Entries) :
    Option Entries :=
  within .implied
    (fun _ inner =>
      match item? inner key with
      | none => some (put inner key (.rows [[]]))
      | some (.rows rows) => some (put inner key (.rows (rows ++ [[]])))
      | some _ => none)
    .stated path entries

/-- Put a value under a dotted key of the table with a header. -/
def addUnder (header path : List Text) (key : Text) (value : Value)
    (entries : Entries) : Option Entries :=
  within .implied (fun _ inner => addDotted path key value inner) .stated
    header entries

end Entries

/-! ## Values -/

mutual

def Item.toValue : Item → Value
  | .value content => content
  | .table _ entries => .table (Item.tableEntries entries)
  | .rows tables => .array (Item.rowValues tables)

def Item.tableEntries : List (Text × Item) → List (Text × Value)
  | [] => []
  | (key, item) :: rest => (key, item.toValue) :: Item.tableEntries rest

def Item.rowValues : List (List (Text × Item)) → List Value
  | [] => []
  | row :: rest => .table (Item.tableEntries row) :: Item.rowValues rest

end

end ComponentDocs.Toml
