import ComponentDocs.Proofs.Assembly.Types
import ComponentDocs.Proofs.TypeExpression.Signature

/-!
The signatures of the methods that a component lists. They are read from the
type in one line, whatever its normal form is: a function literal gives its
parameters and its result, but so does every form whose line starts with a list
in parentheses.
-/

namespace ComponentDocs.Assembly

open Signature (StartsWithList parameterList result?)

theorem signature_of_mem_methods {slug page : Text} {options : ParseOptions}
    {component : Component}
    (assembled : Assembly.component slug page options = .ok component)
    {method : Method} (member : method ∈ component.methods) :
    method.signature = signatureOf method.type := by
  obtain ⟨front, body, title, -, -, rfl⟩ := component_eq_ok assembled
  obtain ⟨row, -, read⟩ := exists_row_of_mem_collect member
  obtain ⟨name, -, rfl⟩ := Option.map_eq_some_iff.mp read
  rfl

/-- A type has a signature of its own when its line starts with a list that
holds a parameter or that a result follows. -/
theorem signatureOf_ne_empty_iff {type : TypeExpression} :
    signatureOf type ≠ .empty ↔
      ∃ inside after, StartsWithList type.display inside after ∧
        signatureOf type = ⟨parameterList inside, result? after⟩ ∧
        (parameterList inside ≠ [] ∨ result? after ≠ none) := by
  have proper {inside after : Text} :
      (⟨parameterList inside, result? after⟩ : Signature) ≠ .empty ↔
        parameterList inside ≠ [] ∨ result? after ≠ none := by
    rw [Signature.empty, Ne, Signature.mk.injEq, not_and_or]
  constructor
  · intro nonempty
    cases found : Signature.ofText? type.display with
    | none =>
        rw [signatureOf, found] at nonempty
        exact absurd rfl nonempty
    | some signature =>
        obtain ⟨inside, after, starts, rfl⟩ :=
          Signature.ofText?_eq_some_iff.mp found
        rw [signatureOf, found, Option.getD_some] at nonempty ⊢
        exact ⟨inside, after, starts, rfl, proper.mp nonempty⟩
  · rintro ⟨inside, after, -, same, holds⟩
    rw [same]
    exact proper.mpr holds

/-- A function literal has the signature that it writes, if it writes one. Any
other type has a signature exactly when its line starts with a list that holds
a parameter or that a result follows, and then it has the signature of that
list. -/
theorem signature_of_method {slug page : Text} {options : ParseOptions}
    {component : Component}
    (assembled : Assembly.component slug page options = .ok component)
    {method : Method} (member : method ∈ component.methods) :
    (∀ content, method.type.normalized = .literal content →
        "=>".toList <:+: content →
        method.signature = (Signature.ofText? content).getD .empty) ∧
      (method.type.isFunction = false →
        (method.signature ≠ .empty ↔
          ∃ inside after, StartsWithList method.type.display inside after ∧
            method.signature = ⟨parameterList inside, result? after⟩ ∧
            (parameterList inside ≠ [] ∨ result? after ≠ none))) := by
  rw [signature_of_mem_methods assembled member]
  constructor
  · intro content isLiteral _
    have line : method.type.display = content := by
      rw [TypeExpression.display, isLiteral]
    rw [signatureOf, line]
  · intro _
    exact signatureOf_ne_empty_iff

/-- A picker: one method with a function literal as its type, and one with a
function and a name between slashes. -/
def pickerPage : Text :=
  Text.join ['\n'] <|
    ["---", "title: Picker", "---", "", "## API", "", "### Exposes", "",
      "| Name | Type |", "| --- | --- |",
      "| open | ^[Function]\x60(force: boolean) => void\x60 |",
      "| pick | \x60(value: string) => void\x60 / string |"].map
        String.toList

def openMethod : Method where
  name := "open".toList
  description := none
  type := TypeExpression.ofText
    "^[Function]\x60(force: boolean) => void\x60".toList
  signature :=
    ⟨[⟨"force".toList, TypeExpression.ofText "boolean".toList⟩],
      some (TypeExpression.ofText "void".toList)⟩

def pickMethod : Method where
  name := "pick".toList
  description := none
  type := TypeExpression.ofText
    "\x60(value: string) => void\x60 / string".toList
  signature :=
    ⟨[⟨"value".toList, TypeExpression.ofText "string".toList⟩],
      some (TypeExpression.ofText "void | string".toList)⟩

def pickerComponent : Component :=
  { Component.ofTag "y-picker".toList with
    methods := [openMethod, pickMethod] }

theorem pickerPage_assembled :
    Assembly.component "picker".toList pickerPage .default =
      .ok pickerComponent := by
  decide +kernel

theorem openMethod_signature :
    openMethod ∈ pickerComponent.methods ∧
      (∀ content, openMethod.type.normalized = .literal content →
          "=>".toList <:+: content →
          openMethod.signature =
            (Signature.ofText? content).getD .empty) ∧
        (openMethod.type.isFunction = false →
          (openMethod.signature ≠ .empty ↔
            ∃ inside after,
              StartsWithList openMethod.type.display inside after ∧
              openMethod.signature = ⟨parameterList inside, result? after⟩ ∧
              (parameterList inside ≠ [] ∨ result? after ≠ none))) := by
  have listed : openMethod ∈ pickerComponent.methods := List.mem_cons_self
  exact ⟨listed, signature_of_method pickerPage_assembled listed⟩

/-- A union of a function and a name has the parameters of the function, and
the name becomes a part of the result. -/
theorem pickMethod_hasSignature :
    Assembly.component "picker".toList pickerPage .default =
        .ok pickerComponent ∧
      pickMethod ∈ pickerComponent.methods ∧
      pickMethod.type.normalized =
        .union ["(value: string) => void".toList, "string".toList] ∧
      pickMethod.signature.parameters.map Parameter.name =
        ["value".toList] ∧
      pickMethod.signature.result.map TypeExpression.display =
        some "void | string".toList := by
  refine ⟨by decide +kernel, ?_, ?_, ?_, ?_⟩
  · exact List.mem_cons_of_mem _ List.mem_cons_self
  · decide +kernel
  · rfl
  · decide +kernel

end ComponentDocs.Assembly
