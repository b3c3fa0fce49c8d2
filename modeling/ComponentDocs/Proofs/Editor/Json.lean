import ComponentDocs.Editor.Json
import ComponentDocs.Proofs.Json.Record
import ComponentDocs.Proofs.Json.Written

/-!
The document for editors is read back from its JSON form, but for the numbers
among its default values: one that is not finite is lost, and one that is
finite is read as the number of its text.
-/

namespace ComponentDocs

open Json (IsCodec Record isCodec_text isCodec_ofFields)
open Json.Record (required?_of_get?_eq optional?_of_get?_eq)

/-! ## Values that change -/

namespace Json

variable {α : Type} {encode : α → Json} {decode? : Json → Option α}
  {valid : α → Prop} {reread : α → α}

/-- A reading that takes every valid value to `reread` of what was written. -/
structure IsReading (encode : α → Json) (decode? : Json → Option α)
    (valid : α → Prop) (reread : α → α) : Prop where
  decode?_encode : ∀ value, valid value →
    decode? (encode value) = some (reread value)
  isWritten : ∀ value, valid value → (encode value).IsWritten

namespace IsReading

variable (reading : IsReading encode decode? valid reread)

include reading

theorem mapM_map {values : List α} (each : ∀ value ∈ values, valid value) :
    (values.map encode).mapM decode? = some (values.map reread) := by
  induction values with
  | nil =>
      rfl
  | cons value values inductionHypothesis =>
      obtain ⟨isValid, others⟩ := List.forall_mem_cons.mp each
      rw [List.map_cons, List.mapM_cons, reading.decode?_encode value isValid,
        inductionHypothesis others]
      rfl

theorem list :
    IsReading (fun values => .array (values.map encode)) (list? decode?)
      (fun values => ∀ value ∈ values, valid value)
      (fun values => values.map reread) where
  decode?_encode _ each := reading.mapM_map each
  isWritten values each := by
    refine areWritten_iff.mpr ?_
    intro item member
    obtain ⟨value, isMember, rfl⟩ := List.mem_map.mp member
    exact reading.isWritten value (each value isMember)

theorem required?_of_get?_eq {record : Record} {key : Text} {value : α}
    (isValid : valid value) (found : record.get? key = some (encode value)) :
    record.required? decode? key = some (reread value) := by
  rw [Record.required?, found, Option.bind_some,
    reading.decode?_encode value isValid]

end IsReading

end Json

/-! ## Default values -/

namespace DefaultValue

/-- Whether a number is one that reading a text can give. -/
def IsStandard : DefaultValue → Prop
  | number value => value.IsStandard
  | _ => True

/-- What is read back for a default value. -/
def reread? : DefaultValue → Option DefaultValue
  | number value =>
      (value.write?.bind Json.Literal.number?).map number
  | other => some other

theorem isWritten_toJson {value : DefaultValue} (standard : value.IsStandard) :
    value.toJson.IsWritten := by
  cases value with
  | bool value => exact trivial
  | text content => exact rfl
  | number value =>
      rw [toJson]
      cases written : value.write? with
      | none => exact trivial
      | some literal => exact (Json.number_write? standard written).1

theorem nullable?_toJson {value : DefaultValue}
    (standard : value.IsStandard) :
    Json.nullable? ofJson? value.toJson = some value.reread? := by
  cases value with
  | bool value => rfl
  | text content => rfl
  | number value =>
      rw [toJson, reread?]
      cases written : value.write? with
      | none => rfl
      | some literal =>
          obtain ⟨read, isRead⟩ := Option.isSome_iff_exists.mp
            (Json.number_write? standard written).2
          have decoded : ofJson? (.number literal) = some (.number read) := by
            rw [ofJson?, isRead]
            rfl
          rw [Option.bind_some, isRead]
          exact congrArg (Option.map some) decoded

end DefaultValue

namespace Editor

theorem AttributeValue.isCodec : IsCodec toJson ofJson? := by
  refine isCodec_ofFields (fun _ => rfl) (by decide) ?_ ?_
  · intro value record found
    simp only [List.forall_mem_cons] at found
    obtain ⟨kind, type, _⟩ := found
    rw [required?_of_get?_eq isCodec_text kind,
      required?_of_get?_eq isCodec_text type]
    rfl
  · intro value
    simp only [List.forall_mem_cons]
    exact ⟨isCodec_text.isWritten_of_mem_map (some _),
      isCodec_text.isWritten_of_mem_map (some _), by simp⟩

namespace Attribute

def IsStandard (item : Attribute) : Prop :=
  ∀ value ∈ item.default, value.IsStandard

/-- What is read back for an attribute: all but a default that is lost. -/
def reread (item : Attribute) : Attribute :=
  { item with default := item.default.bind DefaultValue.reread? }

theorem optional?_default {record : Record} {key : Text} {item : Attribute}
    (standard : item.IsStandard) (omits : record.mayOmit = true)
    (found : record.get? key = item.default.map DefaultValue.toJson) :
    record.optional? DefaultValue.ofJson? key = some item.reread.default := by
  unfold IsStandard at standard
  rw [Record.optional?, found, reread]
  cases default : item.default with
  | none => exact if_pos omits
  | some value =>
      exact DefaultValue.nullable?_toJson (standard value default)

theorem isReading : Json.IsReading toJson ofJson? IsStandard reread where
  decode?_encode item standard := by
    refine Json.bind_ofJson?_ofFields_of_mayOmit rfl (by decide) ?_
    intro record omits found
    simp only [List.forall_mem_cons] at found
    obtain ⟨name, description, default, value, _⟩ := found
    rw [required?_of_get?_eq isCodec_text name,
      optional?_of_get?_eq isCodec_text omits description,
      optional?_default standard omits default,
      required?_of_get?_eq AttributeValue.isCodec value]
    rfl
  isWritten item standard := by
    refine Json.isWritten_ofFields ?_
    simp only [List.forall_mem_cons]
    refine ⟨isCodec_text.isWritten_of_mem_map (some _),
      isCodec_text.isWritten_of_mem_map _, ?_,
      AttributeValue.isCodec.isWritten_of_mem_map (some _), by simp⟩
    intro json member
    obtain ⟨value, isDefault, rfl⟩ := Option.map_eq_some_iff.mp member
    exact DefaultValue.isWritten_toJson (standard value isDefault)

end Attribute

/-! ## Elements and documents -/

theorem Named.isCodec : IsCodec toJson ofJson? where
  decode?_encode named := by
    refine Json.bind_ofJson?_ofFields_of_mayOmit rfl (by decide) ?_
    intro record omits found
    simp only [List.forall_mem_cons] at found
    obtain ⟨name, description, _⟩ := found
    rw [required?_of_get?_eq isCodec_text name,
      optional?_of_get?_eq isCodec_text omits description]
    rfl
  isWritten named := by
    refine Json.isWritten_ofFields ?_
    simp only [List.forall_mem_cons]
    exact ⟨isCodec_text.isWritten_of_mem_map (some _),
      isCodec_text.isWritten_of_mem_map _, by simp⟩
  ne_null _ := Json.noConfusion

namespace Element

def IsStandard (element : Element) : Prop :=
  ∀ item ∈ element.attributes, item.IsStandard

def reread (element : Element) : Element :=
  { element with attributes := element.attributes.map Attribute.reread }

theorem isReading : Json.IsReading toJson ofJson? IsStandard reread where
  decode?_encode element standard := by
    refine Json.bind_ofJson?_ofFields_of_mayOmit rfl (by decide) ?_
    intro record omits found
    simp only [List.forall_mem_cons] at found
    obtain ⟨name, description, docUrl, attributes, events, slots, _⟩ := found
    rw [required?_of_get?_eq isCodec_text name,
      optional?_of_get?_eq isCodec_text omits description,
      optional?_of_get?_eq isCodec_text omits docUrl,
      Attribute.isReading.list.required?_of_get?_eq standard attributes,
      required?_of_get?_eq Named.isCodec.list events,
      required?_of_get?_eq Named.isCodec.list slots]
    rfl
  isWritten element standard := by
    refine Json.isWritten_ofFields ?_
    simp only [List.forall_mem_cons]
    refine ⟨isCodec_text.isWritten_of_mem_map (some _),
      isCodec_text.isWritten_of_mem_map _,
      isCodec_text.isWritten_of_mem_map _, ?_,
      Named.isCodec.list.isWritten_of_mem_map (some _),
      Named.isCodec.list.isWritten_of_mem_map (some _), by simp⟩
    rintro json ⟨⟩
    exact Attribute.isReading.list.isWritten _ standard

end Element

namespace HtmlContributions

def IsStandard (html : HtmlContributions) : Prop :=
  ∀ element ∈ html.elements, element.IsStandard

def reread (html : HtmlContributions) : HtmlContributions :=
  ⟨html.elements.map Element.reread⟩

theorem isReading : Json.IsReading toJson ofJson? IsStandard reread where
  decode?_encode html standard := by
    rw [ofJson?, toJson]
    refine Json.bind_ofJson?_ofFields rfl (by decide) ?_
    intro record found
    simp only [List.forall_mem_cons] at found
    rw [Element.isReading.list.required?_of_get?_eq standard found.1]
    rfl
  isWritten html standard := by
    refine Json.isWritten_ofFields ?_
    simp only [List.forall_mem_cons]
    refine ⟨?_, by simp⟩
    rintro json ⟨⟩
    exact Element.isReading.list.isWritten _ standard

end HtmlContributions

namespace Contributions

theorem isReading :
    Json.IsReading toJson ofJson? (fun contributions =>
      contributions.html.IsStandard)
      (fun contributions => ⟨contributions.html.reread⟩) where
  decode?_encode contributions standard := by
    rw [ofJson?, toJson]
    refine Json.bind_ofJson?_ofFields rfl (by decide) ?_
    intro record found
    simp only [List.forall_mem_cons] at found
    rw [HtmlContributions.isReading.required?_of_get?_eq standard found.1]
    rfl
  isWritten contributions standard := by
    refine Json.isWritten_ofFields ?_
    simp only [List.forall_mem_cons]
    refine ⟨?_, by simp⟩
    rintro json ⟨⟩
    exact HtmlContributions.isReading.isWritten _ standard

end Contributions

namespace WebTypes

def IsStandard (document : WebTypes) : Prop :=
  document.contributions.html.IsStandard

/-- What is read back for a document. -/
def reread (document : WebTypes) : WebTypes :=
  { document with contributions := ⟨document.contributions.html.reread⟩ }

theorem isReading : Json.IsReading toJson ofJson? IsStandard reread where
  decode?_encode document standard := by
    rw [ofJson?, toJson]
    refine Json.bind_ofJson?_ofFields rfl (by decide) ?_
    intro record found
    simp only [List.forall_mem_cons] at found
    obtain ⟨schema, framework, name, version, typesSyntax, descriptionMarkup,
      contributions, _⟩ := found
    rw [required?_of_get?_eq isCodec_text schema,
      required?_of_get?_eq isCodec_text framework,
      required?_of_get?_eq isCodec_text name,
      required?_of_get?_eq isCodec_text version,
      required?_of_get?_eq isCodec_text typesSyntax,
      required?_of_get?_eq isCodec_text descriptionMarkup,
      Contributions.isReading.required?_of_get?_eq standard contributions]
    rfl
  isWritten document standard := by
    refine Json.isWritten_ofFields ?_
    simp only [List.forall_mem_cons]
    refine ⟨isCodec_text.isWritten_of_mem_map (some _),
      isCodec_text.isWritten_of_mem_map (some _),
      isCodec_text.isWritten_of_mem_map (some _),
      isCodec_text.isWritten_of_mem_map (some _),
      isCodec_text.isWritten_of_mem_map (some _),
      isCodec_text.isWritten_of_mem_map (some _), ?_, by simp⟩
    rintro json ⟨⟩
    exact Contributions.isReading.isWritten _ standard

end WebTypes

end Editor

end ComponentDocs
