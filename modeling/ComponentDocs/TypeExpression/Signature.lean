import ComponentDocs.TypeExpression.Rule

/-!
Function signatures `(a: A, b?: B) => R`, split into parameters and result.
-/

namespace ComponentDocs

/-- A parameter: its name as written, and its type. -/
structure Parameter where
  name : Text
  type : TypeExpression
deriving DecidableEq, Repr

/-- The parameters and the result type of a function, when one is given. -/
structure Signature where
  parameters : List Parameter
  result : Option TypeExpression
deriving DecidableEq, Repr

namespace Signature

def empty : Signature :=
  ⟨[], none⟩

/-- What stands before the parenthesis that closes `depth` open ones, and what
stands after it. -/
def closing? (depth : Nat) : Text → Option (Text × Text)
  | [] => none
  | ')' :: rest =>
      if depth - 1 = 0 then some ([], rest)
      else
        (closing? (depth - 1) rest).map fun (inside, after) =>
          (')' :: inside, after)
  | character :: rest =>
      (closing? (if character = '(' then depth + 1 else depth) rest).map
        fun (inside, after) => (character :: inside, after)

/-- How a character changes the bracket depth. The arrow `=>` closes nothing. -/
def depthChange (previous character : Char) : Int :=
  if "(<\x7b[".toList.contains character then 1
  else if character = '>' && previous = '=' then 0
  else if ")>\x7d]".toList.contains character then -1
  else 0

/-- The pieces between the `delimiter` characters outside all brackets. -/
def splitTopLevel (delimiter : Char) (depth : Int) (previous : Char) :
    Text → List Text
  | [] => [[]]
  | character :: rest =>
      if character = delimiter && depth = 0 then
        [] :: splitTopLevel delimiter depth character rest
      else
        TypeExpression.extendFirst character <|
          splitTopLevel delimiter (depth + depthChange previous character)
            character rest

/-- The pieces of a text that starts outside all brackets. -/
def pieces (delimiter : Char) (text : Text) : List Text :=
  splitTopLevel delimiter 0 '\x00' text

def anyType : TypeExpression :=
  ⟨[], .simple "any".toList⟩

/-- A parameter from its text: a name, or a name, a colon and a type. -/
def parameter (text : Text) : Parameter :=
  match pieces ':' text with
  | name :: first :: rest =>
      let written := Text.trim (Text.join [':'] (first :: rest))
      ⟨Text.trim name,
        if written.isEmpty then anyType else TypeExpression.ofText written⟩
  | _ => ⟨text, anyType⟩

def parameterList (text : Text) : List Parameter :=
  (((pieces ',' text).map Text.trim).filter (!·.isEmpty)).map parameter

def result? (after : Text) : Option TypeExpression :=
  match Text.withoutStart? "=>".toList (Text.trim after) with
  | some written =>
      let trimmed := Text.trim written
      if trimmed.isEmpty then none else some (TypeExpression.ofText trimmed)
  | none => none

/-- The signature that a text writes; `none` when it does not start with a
list of parameters. -/
def ofText? (text : Text) : Option Signature :=
  match Text.trim text with
  | '(' :: rest =>
      (closing? 1 rest).map fun (inside, after) =>
        ⟨parameterList inside, result? after⟩
  | _ => none

end Signature

end ComponentDocs
