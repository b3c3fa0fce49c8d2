import ComponentDocs.Component.Json
import ComponentDocs.Proofs.Json.Record

/-!
Components are read back from their JSON form, whatever their texts and lists
hold.
-/

namespace ComponentDocs

open Json (IsCodec Record isCodec_text isCodec_ofFields)
open Json.Record (required?_of_get?_eq nullable?_of_get?_eq
  defaulted?_of_get?_eq)

/-! ## Types -/

namespace TypeForm

/-- The content of a tagged value is decoded as its kind tells. -/
theorem ofJson?_tagged (kind : Text) (content : Json) :
    ofJson? (tagged kind content) =
      if kind = simpleKind then (Json.text? content).map simple
      else if kind = unionKind then (Json.list? Json.text? content).map union
      else if kind = literalKind then (Json.text? content).map literal
      else none := by
  have distinct : keys.Nodup := by decide
  have found := Record.get?_written
    [("kind".toList, some (.text kind)), ("value".toList, some content)]
    distinct
  simp only [List.forall_mem_cons] at found
  obtain ⟨hasKind, hasContent, _⟩ := found
  rw [ofJson?, tagged, Record.ofJson?_ofFields (by rfl) distinct]
  simp only [Option.bind_eq_bind, Option.bind_some, Record.required?, hasKind,
    hasContent]
  rfl

theorem isCodec : IsCodec toJson ofJson? where
  decode?_encode form := by
    cases form with
    | simple name =>
        rw [toJson, ofJson?_tagged, if_pos rfl]
        rfl
    | union members =>
        rw [toJson, ofJson?_tagged, if_neg (by decide), if_pos rfl,
          isCodec_text.list.decode?_encode]
        rfl
    | literal content =>
        rw [toJson, ofJson?_tagged, if_neg (by decide), if_neg (by decide),
          if_pos rfl]
        rfl
  isWritten form := by
    cases form with
    | simple name => exact ⟨rfl, rfl, rfl, rfl, trivial⟩
    | union members =>
        exact ⟨rfl, rfl, rfl, isCodec_text.list.isWritten members, trivial⟩
    | literal content => exact ⟨rfl, rfl, rfl, rfl, trivial⟩
  ne_null form := by
    cases form <;> exact Json.noConfusion

end TypeForm

namespace TypeExpression

theorem isCodec : IsCodec toJson ofJson? := by
  refine isCodec_ofFields (fun _ => rfl) (by decide) ?_ ?_
  · intro expression record found
    simp only [List.forall_mem_cons] at found
    obtain ⟨raw, normalized, _⟩ := found
    rw [required?_of_get?_eq isCodec_text raw,
      required?_of_get?_eq TypeForm.isCodec normalized]
    rfl
  · intro expression
    simp only [List.forall_mem_cons]
    exact ⟨isCodec_text.isWritten_of_mem_map (some _),
      TypeForm.isCodec.isWritten_of_mem_map (some _), by simp⟩

end TypeExpression

/-! ## Entities -/

theorem Property.isCodec : IsCodec toJson ofJson? := by
  refine isCodec_ofFields (fun _ => rfl) (by decide) ?_ ?_
  · intro property record found
    simp only [List.forall_mem_cons] at found
    obtain ⟨name, description, type, default, _⟩ := found
    rw [required?_of_get?_eq isCodec_text name,
      nullable?_of_get?_eq isCodec_text description,
      required?_of_get?_eq TypeExpression.isCodec type,
      nullable?_of_get?_eq isCodec_text default]
    rfl
  · intro property
    simp only [List.forall_mem_cons]
    exact ⟨isCodec_text.isWritten_of_mem_map (some _),
      isCodec_text.isWritten_of_mem_map _,
      TypeExpression.isCodec.isWritten_of_mem_map (some _),
      isCodec_text.isWritten_of_mem_map _, by simp⟩

theorem Event.isCodec : IsCodec toJson ofJson? := by
  refine isCodec_ofFields (fun _ => rfl) (by decide) ?_ ?_
  · intro event record found
    simp only [List.forall_mem_cons] at found
    obtain ⟨name, description, type, _⟩ := found
    rw [required?_of_get?_eq isCodec_text name,
      nullable?_of_get?_eq isCodec_text description,
      required?_of_get?_eq TypeExpression.isCodec type]
    rfl
  · intro event
    simp only [List.forall_mem_cons]
    exact ⟨isCodec_text.isWritten_of_mem_map (some _),
      isCodec_text.isWritten_of_mem_map _,
      TypeExpression.isCodec.isWritten_of_mem_map (some _), by simp⟩

theorem Slot.isCodec : IsCodec toJson ofJson? := by
  refine isCodec_ofFields (fun _ => rfl) (by decide) ?_ ?_
  · intro slot record found
    simp only [List.forall_mem_cons] at found
    obtain ⟨name, description, type, _⟩ := found
    rw [required?_of_get?_eq isCodec_text name,
      nullable?_of_get?_eq isCodec_text description,
      required?_of_get?_eq TypeExpression.isCodec type]
    rfl
  · intro slot
    simp only [List.forall_mem_cons]
    exact ⟨isCodec_text.isWritten_of_mem_map (some _),
      isCodec_text.isWritten_of_mem_map _,
      TypeExpression.isCodec.isWritten_of_mem_map (some _), by simp⟩

theorem Parameter.isCodec : IsCodec toJson ofJson? := by
  refine isCodec_ofFields (fun _ => rfl) (by decide) ?_ ?_
  · intro parameter record found
    simp only [List.forall_mem_cons] at found
    obtain ⟨name, type, _⟩ := found
    rw [required?_of_get?_eq isCodec_text name,
      required?_of_get?_eq TypeExpression.isCodec type]
    rfl
  · intro parameter
    simp only [List.forall_mem_cons]
    exact ⟨isCodec_text.isWritten_of_mem_map (some _),
      TypeExpression.isCodec.isWritten_of_mem_map (some _), by simp⟩

namespace Method

/-- A method without parameters is written without them and read so. -/
theorem defaulted?_parameters {record : Record} {key : Text} {method : Method}
    (found : record.get? key = method.writtenParameters) :
    record.defaulted? [] (Json.list? Parameter.ofJson?) key =
      some method.signature.parameters := by
  rw [writtenParameters] at found
  split at found
  · rename_i empty
    rw [Record.defaulted?, found, List.isEmpty_iff.mp empty]
  · exact defaulted?_of_get?_eq Parameter.isCodec.list found []

theorem isWritten_parameters (method : Method) :
    ∀ json ∈ method.writtenParameters, json.IsWritten := by
  intro json member
  rw [writtenParameters] at member
  split at member
  · cases member
  · exact Parameter.isCodec.list.isWritten_of_mem_map (some _) json member

theorem isCodec : IsCodec toJson ofJson? := by
  refine isCodec_ofFields (fun _ => rfl) (by decide) ?_ ?_
  · intro method record found
    simp only [List.forall_mem_cons] at found
    obtain ⟨name, description, type, parameters, returns, _⟩ := found
    rw [required?_of_get?_eq isCodec_text name,
      nullable?_of_get?_eq isCodec_text description,
      required?_of_get?_eq TypeExpression.isCodec type,
      defaulted?_parameters parameters,
      nullable?_of_get?_eq TypeExpression.isCodec returns]
    rfl
  · intro method
    simp only [List.forall_mem_cons]
    exact ⟨isCodec_text.isWritten_of_mem_map (some _),
      isCodec_text.isWritten_of_mem_map _,
      TypeExpression.isCodec.isWritten_of_mem_map (some _),
      method.isWritten_parameters,
      TypeExpression.isCodec.isWritten_of_mem_map _, by simp⟩

end Method

/-! ## Components -/

theorem Component.isCodec : IsCodec toJson ofJson? := by
  refine isCodec_ofFields (fun _ => rfl) (by decide) ?_ ?_
  · intro component record found
    simp only [fields, List.forall_mem_cons] at found
    obtain ⟨tag, description, introduction, docUrl, props, events, slots,
      methods, _⟩ := found
    rw [ofRecord?, required?_of_get?_eq isCodec_text tag,
      nullable?_of_get?_eq isCodec_text description,
      nullable?_of_get?_eq isCodec_text introduction,
      nullable?_of_get?_eq isCodec_text docUrl,
      defaulted?_of_get?_eq Property.isCodec.list props,
      defaulted?_of_get?_eq Event.isCodec.list events,
      defaulted?_of_get?_eq Slot.isCodec.list slots,
      defaulted?_of_get?_eq Method.isCodec.list methods]
    rfl
  · intro component
    simp only [fields, List.forall_mem_cons]
    exact ⟨isCodec_text.isWritten_of_mem_map (some _),
      isCodec_text.isWritten_of_mem_map _,
      isCodec_text.isWritten_of_mem_map _,
      isCodec_text.isWritten_of_mem_map _,
      Property.isCodec.list.isWritten_of_mem_map (some _),
      Event.isCodec.list.isWritten_of_mem_map (some _),
      Slot.isCodec.list.isWritten_of_mem_map (some _),
      Method.isCodec.list.isWritten_of_mem_map (some _), by simp⟩

theorem Instant.ofJson?_text (content : Text) :
    ofJson? (.text content) = read? content :=
  rfl

namespace Corpus

/-- A corpus is read back if its instant is. -/
theorem ofJson?_toJson {corpus : Corpus}
    (instant : Instant.read? corpus.generatedAt.write =
      some corpus.generatedAt) :
    ofJson? corpus.toJson = some corpus := by
  rw [ofJson?, toJson]
  refine Json.bind_ofJson?_ofFields rfl (by decide) ?_
  intro record found
  simp only [List.forall_mem_cons] at found
  obtain ⟨version, generatedAt, components, _⟩ := found
  have readInstant :
      record.required? Instant.ofJson? "generatedAt".toList =
        some corpus.generatedAt := by
    rw [Record.required?, generatedAt, Option.bind_some, Instant.ofJson?_text,
      instant]
  rw [required?_of_get?_eq isCodec_text version, readInstant,
    required?_of_get?_eq Component.isCodec.list components]
  rfl

theorem isWritten_toJson (corpus : Corpus) : corpus.toJson.IsWritten := by
  refine Json.isWritten_ofFields ?_
  simp only [List.forall_mem_cons]
  exact ⟨isCodec_text.isWritten_of_mem_map (some _),
    isCodec_text.isWritten_of_mem_map (some _),
    Component.isCodec.list.isWritten_of_mem_map (some _), by simp⟩

end Corpus

end ComponentDocs
