import ComponentDocs.Json.Literal

/-!
Records as JSON: an object with a key for each field, or an array of the
fields in their order.

An object may leave fields out and may have others, but must not repeat a
field. An array has no others; what it leaves out at its end is there only if
it has a value of its own by default.
-/

namespace ComponentDocs.Json

/-- The fields of a record that are given, and whether others may be left
out. -/
structure Record where
  fields : List (Text × Json)
  mayOmit : Bool

namespace Record

/-- The fields of an object that are among `keys`; `none` when a key has no
content or one of `keys` occurs twice. -/
def select? (keys : List Text) :
    List (Option Text × Json) → Option (List (Text × Json))
  | [] => some []
  | (none, _) :: _ => none
  | (some key, value) :: rest =>
      match select? keys rest with
      | none => none
      | some found =>
          if !keys.contains key then some found
          else if found.any (fun field => field.1 == key) then none
          else some ((key, value) :: found)

/-- The record of the fields `keys` that a value writes. -/
def ofJson? (keys : List Text) : Json → Option Record
  | object fields => (select? keys fields).map (⟨·, true⟩)
  | array items =>
      if items.length ≤ keys.length then some ⟨keys.zip items, false⟩
      else none
  | _ => none

/-- The value of a field, if it is given. -/
def get? (record : Record) (key : Text) : Option Json :=
  (record.fields.find? (fun field => field.1 == key)).map Prod.snd

variable {α : Type}

def required? (decode? : Json → Option α) (key : Text) (record : Record) :
    Option α :=
  (record.get? key).bind decode?

def defaulted? (fallback : α) (decode? : Json → Option α) (key : Text)
    (record : Record) : Option α :=
  match record.get? key with
  | some json => decode? json
  | none => some fallback

/-- A field that may be `null` and that an object may leave out. -/
def optional? (decode? : Json → Option α) (key : Text) (record : Record) :
    Option (Option α) :=
  match record.get? key with
  | some json => nullable? decode? json
  | none => if record.mayOmit then some none else none

/-- A field that may be `null` and may be left out everywhere. -/
def nullable? (decode? : Json → Option α) (key : Text) (record : Record) :
    Option (Option α) :=
  defaulted? none (Json.nullable? decode?) key record

end Record

def ofFields (fields : List (Text × Option Json)) : Json :=
  .object <| fields.filterMap fun (key, value) =>
    value.map fun json => (some key, json)

/-! ## Values that are kept -/

/-- The levels of nesting that a kept value may have. -/
def greatestDepth : Nat := 127

mutual

/-- Whether all strings have content, all numbers stand for one and no more
than `levels` levels are nested. -/
def isSound (levels : Nat) : Json → Bool
  | null => true
  | bool _ => true
  | number literal => (Literal.number? literal).isSome
  | string content => content.isSome
  | array items => 0 < levels && areSoundItems (levels - 1) items
  | object fields => 0 < levels && areSoundFields (levels - 1) fields

def areSoundItems (levels : Nat) : List Json → Bool
  | [] => true
  | item :: items => isSound levels item && areSoundItems levels items

def areSoundFields (levels : Nat) : List (Option Text × Json) → Bool
  | [] => true
  | (key, value) :: fields =>
      key.isSome && isSound levels value && areSoundFields levels fields

end

/-- Whether a value can be kept whatever it holds. -/
def canKeep (json : Json) : Bool :=
  json.isSound greatestDepth

end ComponentDocs.Json
