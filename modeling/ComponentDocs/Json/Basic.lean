import ComponentDocs.Text.Basic

/-!
JSON values.

A number keeps the text it is written in, and what it stands for is settled
where it is used. A string whose escapes name half of a surrogate pair is
well-formed but has no content; such a key is well-formed too.
-/

namespace ComponentDocs

/-- A JSON value. The fields of an object are in the order of the text and a
key may occur more than once. -/
inductive Json
  | null
  | bool (value : Bool)
  | number (literal : Text)
  | string (content : Option Text)
  | array (items : List Json)
  | object (fields : List (Option Text × Json))

namespace Json

def text (content : Text) : Json :=
  .string (some content)

def natural (value : Nat) : Json :=
  .number (Text.ofNat value)

def text? : Json → Option Text
  | string content => content
  | _ => none

def bool? : Json → Option Bool
  | bool value => some value
  | _ => none

def greatestNatural : Nat := Nat.pow 2 64 - 1

/-- The whole number of at most 64 bits that a number literal writes, without
sign, point and exponent. -/
def natural? : Json → Option Nat
  | number literal =>
      match Text.toNat? literal with
      | some value => if value ≤ greatestNatural then some value else none
      | none => none
  | _ => none

def items? : Json → Option (List Json)
  | array items => some items
  | _ => none

def list? {α : Type} (decode? : Json → Option α) (json : Json) :
    Option (List α) :=
  json.items?.bind (·.mapM decode?)

def nullable? {α : Type} (decode? : Json → Option α) :
    Json → Option (Option α)
  | null => some none
  | json => (decode? json).map some

end Json

end ComponentDocs
