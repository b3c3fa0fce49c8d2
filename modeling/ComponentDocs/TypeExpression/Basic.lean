import ComponentDocs.Text.Basic

/-!
Type expressions: the text that a page gives and the form it is brought to.
-/

namespace ComponentDocs

/-- The normal form of a type expression. -/
inductive TypeForm
  /-- A single type name. -/
  | simple (name : Text)
  /-- Ordered alternatives. -/
  | union (members : List Text)
  /-- A function signature, object shape or list of literals, word for word. -/
  | literal (content : Text)
deriving DecidableEq, Repr

namespace TypeForm

/-- The alternatives of a form; a name or literal is its only one. -/
def members : TypeForm → List Text
  | simple name => [name]
  | union members => members
  | literal content => [content]

end TypeForm

/-- A type expression as written and its normal form. -/
structure TypeExpression where
  raw : Text
  normalized : TypeForm
deriving DecidableEq, Repr

namespace TypeExpression

/-- The normal form in one line, alternatives joined by ` | `. -/
def display (expression : TypeExpression) : Text :=
  match expression.normalized with
  | .simple name => name
  | .union members => Text.join " | ".toList members
  | .literal content => content

/-- Whether the normal form is the type `name`, up to ASCII case. -/
def isSimple (expression : TypeExpression) (name : Text) : Bool :=
  match expression.normalized with
  | .simple simple => Text.sameIgnoringCase simple name
  | _ => false

def isFunction (expression : TypeExpression) : Bool :=
  match expression.normalized with
  | .literal content => Text.hasPiece "=>".toList content
  | _ => false

end TypeExpression

end ComponentDocs
