import ComponentDocs.Json.Record
import ComponentDocs.Proofs.Json.Pretty
import Mathlib.Data.List.Nodup

/-!
Records are read back as they are written: every field is found under its key,
and one that was left out is not found at all.
-/

namespace ComponentDocs.Json

variable {α : Type} {encode : α → Json} {decode? : Json → Option α}

/-! ## Codecs -/

/-- A reading that takes every written value back to what was written. No
written value is `null`, which stands for a field that is not there. -/
structure IsCodec (encode : α → Json) (decode? : Json → Option α) : Prop where
  decode?_encode : ∀ value, decode? (encode value) = some value
  isWritten : ∀ value, (encode value).IsWritten
  ne_null : ∀ value, encode value ≠ null

theorem isCodec_text : IsCodec Json.text Json.text? where
  decode?_encode _ := rfl
  isWritten _ := rfl
  ne_null _ := Json.noConfusion

namespace IsCodec

theorem mapM_map (codec : IsCodec encode decode?) (values : List α) :
    (values.map encode).mapM decode? = some values := by
  induction values with
  | nil =>
      rfl
  | cons value values inductionHypothesis =>
      rw [List.map_cons, List.mapM_cons, codec.decode?_encode,
        inductionHypothesis]
      rfl

theorem list (codec : IsCodec encode decode?) :
    IsCodec (fun values => .array (values.map encode)) (list? decode?) where
  decode?_encode := codec.mapM_map
  isWritten values := by
    refine areWritten_iff.mpr ?_
    intro item member
    obtain ⟨value, _, rfl⟩ := List.mem_map.mp member
    exact codec.isWritten value
  ne_null _ := Json.noConfusion

theorem nullable?_encode (codec : IsCodec encode decode?) (value : α) :
    Json.nullable? decode? (encode value) = some (some value) := by
  rw [Json.nullable?, codec.decode?_encode]
  · rfl
  · exact codec.ne_null value

end IsCodec

/-! ## The fields of an object -/

namespace Record

/-- The record that an object of these fields is read as. -/
def written (fields : List (Text × Option Json)) : Record where
  fields := fields.filterMap fun (key, value) => value.map fun json => (key, json)
  mayOmit := true

theorem mem_fields_written_iff {fields : List (Text × Option Json)}
    {key : Text} {json : Json} :
    (key, json) ∈ (written fields).fields ↔ (key, some json) ∈ fields := by
  simp [written, Prod.ext_iff]

theorem select?_filterMap {keys : List Text}
    {fields : List (Text × Option Json)}
    (distinct : (fields.map Prod.fst).Nodup)
    (known : ∀ field ∈ fields, field.1 ∈ keys) :
    select? keys (fields.filterMap fun (key, value) =>
        value.map fun json => (some key, json)) =
      some (written fields).fields := by
  induction fields with
  | nil =>
      rfl
  | cons field fields inductionHypothesis =>
      obtain ⟨absent, distinct⟩ := List.nodup_cons.mp distinct
      obtain ⟨isKey, known⟩ := List.forall_mem_cons.mp known
      have others := inductionHypothesis distinct known
      obtain ⟨key, value⟩ := field
      cases value with
      | none =>
          exact others
      | some json =>
          have notRepeated :
              (written fields).fields.any (fun field => field.1 == key) =
                false := by
            rw [List.any_eq_false]
            rintro ⟨other, value⟩ member same
            obtain rfl := eq_of_beq same
            have isField := mem_fields_written_iff.mp member
            exact absent (List.mem_map.mpr ⟨_, isField, rfl⟩)
          simp only [List.filterMap_cons, Option.map_some, select?, others,
            List.contains_iff_mem.mpr isKey, notRepeated]
          rfl

/-- An object whose fields have the keys of a record is read as that record. -/
theorem ofJson?_ofFields {keys : List Text}
    {fields : List (Text × Option Json)} (named : fields.map Prod.fst = keys)
    (distinct : keys.Nodup) :
    ofJson? keys (ofFields fields) = some (written fields) := by
  subst named
  rw [ofFields, ofJson?, select?_filterMap distinct]
  · rfl
  · exact fun field member => List.mem_map_of_mem member

/-- Every field is found as it was written, or not at all when it was left
out. -/
theorem get?_written (fields : List (Text × Option Json))
    (distinct : (fields.map Prod.fst).Nodup) :
    ∀ field ∈ fields, (written fields).get? field.1 = field.2 := by
  rintro ⟨key, value⟩ member
  cases found : (written fields).fields.find? (fun field => field.1 == key) with
  | none =>
      cases value with
      | none =>
          rw [get?, found]
          rfl
      | some json =>
          have present := mem_fields_written_iff.mpr member
          exact absurd BEq.rfl (List.find?_eq_none.mp found _ present)
  | some field =>
      obtain ⟨other, json⟩ := field
      have sameKey := List.find?_some found
      obtain rfl := eq_of_beq sameKey
      have pair :=
        mem_fields_written_iff.mp (List.mem_of_find?_eq_some found)
      have same := List.inj_on_of_nodup_map distinct member pair rfl
      rw [get?, found, (Prod.ext_iff.mp same).2]
      rfl

/-! ## Decoding fields -/

variable {record : Record} {key : Text}

theorem required?_of_get?_eq (codec : IsCodec encode decode?) {value : α}
    (found : record.get? key = some (encode value)) :
    record.required? decode? key = some value := by
  rw [required?, found, Option.bind_some, codec.decode?_encode]

theorem defaulted?_of_get?_eq (codec : IsCodec encode decode?) {value : α}
    (found : record.get? key = some (encode value)) (fallback : α) :
    record.defaulted? fallback decode? key = some value := by
  rw [defaulted?, found]
  exact codec.decode?_encode value

/-- A field that may be left out is read as what it was, there or not. -/
theorem nullable?_of_get?_eq (codec : IsCodec encode decode?)
    {value : Option α} (found : record.get? key = value.map encode) :
    record.nullable? decode? key = some value := by
  rw [nullable?, defaulted?, found]
  cases value with
  | none => rfl
  | some value => exact codec.nullable?_encode value

/-- A field that an object may leave out is read as what it was, there or
not. -/
theorem optional?_of_get?_eq (codec : IsCodec encode decode?)
    (omits : record.mayOmit = true) {value : Option α}
    (found : record.get? key = value.map encode) :
    record.optional? decode? key = some value := by
  rw [optional?, found]
  cases value with
  | none => exact if_pos omits
  | some value => exact codec.nullable?_encode value

end Record

/-! ## Records as values -/

theorem IsCodec.isWritten_of_mem_map (codec : IsCodec encode decode?)
    (value : Option α) : ∀ json ∈ value.map encode, json.IsWritten := by
  intro json member
  obtain ⟨value, _, rfl⟩ := Option.map_eq_some_iff.mp member
  exact codec.isWritten value

theorem isWritten_ofFields {fields : List (Text × Option Json)}
    (written : ∀ field ∈ fields, ∀ json ∈ field.2, json.IsWritten) :
    (ofFields fields).IsWritten := by
  refine areWrittenFields_iff.mpr ?_
  intro field member
  obtain ⟨⟨key, value⟩, isField, isThere⟩ := List.mem_filterMap.mp member
  obtain ⟨json, isValue, rfl⟩ := Option.map_eq_some_iff.mp isThere
  exact ⟨rfl, written _ isField json isValue⟩

/-- What is read from a record with the fields of an object is read from the
object; fields that are not there may be left out. -/
theorem bind_ofJson?_ofFields_of_mayOmit {fields : List (Text × Option Json)}
    {keys : List Text} {ofRecord? : Record → Option α} {value : α}
    (named : fields.map Prod.fst = keys) (distinct : keys.Nodup)
    (decodes : ∀ record : Record, record.mayOmit = true →
      (∀ field ∈ fields, record.get? field.1 = field.2) →
        ofRecord? record = some value) :
    (Record.ofJson? keys (ofFields fields)).bind ofRecord? = some value := by
  rw [Record.ofJson?_ofFields named distinct, Option.bind_some]
  exact decodes _ rfl (Record.get?_written fields (named ▸ distinct))

theorem bind_ofJson?_ofFields {fields : List (Text × Option Json)}
    {keys : List Text} {ofRecord? : Record → Option α} {value : α}
    (named : fields.map Prod.fst = keys) (distinct : keys.Nodup)
    (decodes : ∀ record : Record,
      (∀ field ∈ fields, record.get? field.1 = field.2) →
        ofRecord? record = some value) :
    (Record.ofJson? keys (ofFields fields)).bind ofRecord? = some value :=
  bind_ofJson?_ofFields_of_mayOmit named distinct fun record _ =>
    decodes record

theorem isCodec_ofFields {fields : α → List (Text × Option Json)}
    {keys : List Text} {ofRecord? : Record → Option α}
    (named : ∀ value, (fields value).map Prod.fst = keys)
    (distinct : keys.Nodup)
    (decodes : ∀ value record,
      (∀ field ∈ fields value, record.get? field.1 = field.2) →
        ofRecord? record = some value)
    (written : ∀ value, ∀ field ∈ fields value, ∀ json ∈ field.2,
      json.IsWritten) :
    IsCodec (fun value => ofFields (fields value))
      (fun json => (Record.ofJson? keys json).bind ofRecord?) where
  decode?_encode value :=
    bind_ofJson?_ofFields (named value) distinct (decodes value)
  isWritten value := isWritten_ofFields (written value)
  ne_null _ := Json.noConfusion

end ComponentDocs.Json
