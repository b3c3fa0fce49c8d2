import Mathlib.Data.List.Forall2
import ComponentDocs.Proofs.Editor.Json

/-!
The default values in the document for editors: which of them the JSON text
keeps, for a program that reads the text and for one that decodes it.
-/

namespace ComponentDocs

/-! ## Looking into JSON -/

namespace Json

/-- The value of a key in an object. -/
def member? (key : Text) : Json → Option Json
  | object fields =>
      (fields.find? fun field => field.1 == some key).map Prod.snd
  | _ => none

/-- The value that a path of keys leads to. -/
def at? : List Text → Json → Option Json
  | [], json => some json
  | key :: keys, json => (json.member? key).bind (at? keys)

/-- A boolean, a number or a string with content. -/
def IsScalar : Json → Prop
  | bool _ => True
  | number _ => True
  | string content => content.isSome = true
  | _ => False

theorem member?_ofFields_eq_get? (fields : List (Text × Option Json))
    (key : Text) :
    (ofFields fields).member? key = (Record.written fields).get? key := by
  rw [ofFields, member?, Record.get?, Record.written]
  induction fields with
  | nil =>
      rfl
  | cons field fields inductionHypothesis =>
      obtain ⟨name, value⟩ := field
      cases value with
      | none => exact inductionHypothesis
      | some json =>
          simp only [List.filterMap_cons, Option.map_some, List.find?_cons]
          by_cases same : name = key
          · simp [same]
          · have differs : (some name == some key) = false := by
              simpa using same
            have differs' : (name == key) = false := by
              simpa using same
            rw [differs, differs']
            exact inductionHypothesis

theorem member?_ofFields (keys : List Text)
    {fields : List (Text × Option Json)}
    (named : fields.map Prod.fst = keys) (distinct : keys.Nodup) :
    ∀ field ∈ fields, (ofFields fields).member? field.1 = field.2 := by
  intro field member
  rw [member?_ofFields_eq_get?]
  exact Record.get?_written fields (named ▸ distinct) field member

end Json

/-! ## Default values -/

theorem TypeExpression.isSimple_unique {type : TypeExpression}
    {first second : Text} (isFirst : type.isSimple first = true)
    (isSecond : type.isSimple second = true) :
    first.map Char.toLower = second.map Char.toLower := by
  unfold isSimple at isFirst isSecond
  cases form : type.normalized with
  | simple name =>
      rw [form] at isFirst isSecond
      exact (eq_of_beq isFirst).symm.trans (eq_of_beq isSecond)
  | union members => simp [form] at isFirst
  | literal content => simp [form] at isFirst

theorem Binary64.write?_eq_none_iff {number : Binary64} :
    number.write? = none ↔
      number = .nan ∨ ∃ negative, number = .infinite negative := by
  cases number with
  | nan => simp [write?]
  | infinite negative => simp [write?]
  | finite negative significand exponent => simp [write?]

namespace DefaultValue

/-- A default that JSON has no number for: the text of infinity or of what is
no number, where the property is a number. -/
def IsLost (value : Text) (type : TypeExpression) : Prop :=
  type.isSimple "number".toList = true ∧
    (Binary64.ofText? value = some .nan ∨
      ∃ negative, Binary64.ofText? value = some (.infinite negative))

theorem isStandard_ofText (value : Text) (type : TypeExpression) :
    (ofText value type).IsStandard := by
  unfold ofText
  split_ifs
  · exact trivial
  · cases read : Binary64.ofText? value with
    | none => exact trivial
    | some number => exact Binary64.isStandard_ofText? read
  · exact trivial

/-- A number that JSON has no text for becomes `null`, and nothing is read back
for it; every other becomes a number and is read back. -/
theorem toJson_number {number : Binary64} (standard : number.IsStandard) :
    (number.write? = none ∧ (DefaultValue.number number).toJson = .null ∧
        (DefaultValue.number number).reread? = none) ∨
      (number.write? ≠ none ∧ (DefaultValue.number number).toJson.IsScalar ∧
        (DefaultValue.number number).reread?.isSome = true) := by
  cases written : number.write? with
  | none =>
      refine .inl ⟨rfl, ?_, ?_⟩
      · simp only [toJson, written]
      · simp only [reread?, written]
        rfl
  | some literal =>
      refine .inr ⟨Option.some_ne_none literal, ?_, ?_⟩
      · simp only [toJson, written]
        exact trivial
      · simp only [reread?, written, Option.bind_some, Option.isSome_map]
        exact (Json.number_write? standard written).2

theorem isLost_iff_of_read {value : Text} {type : TypeExpression}
    {number : Binary64} (isNumber : type.isSimple "number".toList = true)
    (read : Binary64.ofText? value = some number) :
    IsLost value type ↔ number.write? = none := by
  rw [IsLost, read, Binary64.write?_eq_none_iff, and_iff_right isNumber]
  simp

/-- A default is lost as a whole: its JSON is `null` and nothing is read back
for it. Every other is a boolean, a number or a string, and something is. -/
theorem toJson_ofText (value : Text) (type : TypeExpression) :
    (IsLost value type ∧ (ofText value type).toJson = .null ∧
        (ofText value type).reread? = none) ∨
      (¬ IsLost value type ∧ (ofText value type).toJson.IsScalar ∧
        (ofText value type).reread?.isSome = true) := by
  have standard := isStandard_ofText value type
  unfold ofText at standard ⊢
  by_cases isBoolean : type.isSimple "boolean".toList = true
  · have notNumber : ¬ type.isSimple "number".toList = true := fun isNumber =>
      absurd (TypeExpression.isSimple_unique isBoolean isNumber) (by decide)
    rw [if_pos isBoolean]
    exact .inr ⟨fun lost => notNumber lost.1, trivial, rfl⟩
  · rw [if_neg isBoolean] at standard ⊢
    by_cases isNumber : type.isSimple "number".toList = true
    · rw [if_pos isNumber] at standard ⊢
      cases read : Binary64.ofText? value with
      | none => exact .inr ⟨by simp [IsLost, read], rfl, rfl⟩
      | some number =>
          rw [read] at standard
          rw [isLost_iff_of_read isNumber read]
          exact toJson_number standard
    · rw [if_neg isNumber]
      exact .inr ⟨fun lost => isNumber lost.1, rfl, rfl⟩

end DefaultValue

namespace Editor

open DefaultValue (IsLost)

/-! ## Attributes and elements -/

/-- What the member for the default of a property is in JSON: there is none
without a default, and it is `null` for a default that is lost. -/
def WritesDefault (property : Property) (written : Option Json) : Prop :=
  match property.default with
  | none => written = none
  | some value =>
      ∃ json, written = some json ∧
        (IsLost value property.type → json = .null) ∧
          (¬ IsLost value property.type → json.IsScalar)

/-- Whether a property has a default that is not lost. -/
def KeepsDefault (property : Property) : Prop :=
  ∃ value, property.default = some value ∧ ¬ IsLost value property.type

theorem isStandard_ofProperty (property : Property) :
    (Attribute.ofProperty property).IsStandard := by
  intro default member
  obtain ⟨value, -, rfl⟩ := Option.map_eq_some_iff.mp member
  exact DefaultValue.isStandard_ofText value property.type

theorem isStandard_ofComponent (component : Component) :
    (Element.ofComponent component).IsStandard := by
  intro item member
  obtain ⟨property, -, rfl⟩ := List.mem_map.mp member
  exact isStandard_ofProperty property

theorem writesDefault_ofProperty (property : Property) :
    WritesDefault property
      ((Attribute.ofProperty property).default.map DefaultValue.toJson) := by
  unfold WritesDefault Attribute.ofProperty
  cases property.default with
  | none => rfl
  | some value =>
      refine ⟨_, rfl, ?_⟩
      rcases DefaultValue.toJson_ofText value property.type with
        ⟨lost, null, -⟩ | ⟨notLost, scalar, -⟩
      · exact ⟨fun _ => null, fun notLost => absurd lost notLost⟩
      · exact ⟨fun lost => absurd lost notLost, fun _ => scalar⟩

theorem isSome_reread_ofProperty_iff (property : Property) :
    (Attribute.ofProperty property).reread.default.isSome = true ↔
      KeepsDefault property := by
  unfold KeepsDefault
  change ((property.default.map fun value =>
    DefaultValue.ofText value property.type).bind
      DefaultValue.reread?).isSome = true ↔ _
  cases property.default with
  | none => simp
  | some value =>
      rcases DefaultValue.toJson_ofText value property.type with
        ⟨lost, -, nothing⟩ | ⟨notLost, -, something⟩
      · simp [lost, nothing]
      · simp [notLost, something]

/-- The tags of a corpus stand in the document in the order of their names. -/
theorem exists_perm_elements (corpus : Corpus) :
    ∃ components : List Component, components.Perm corpus.components ∧
      WebTypes.elements corpus = components.map Element.ofComponent := by
  refine ⟨corpus.components.mergeSort fun left right =>
    Text.atMost left.tag right.tag, List.mergeSort_perm _ _, ?_⟩
  symm
  apply List.map_mergeSort
  intro left _ right _
  rfl

/-! ## Members in JSON -/

theorem member?_attribute_name (item : Attribute) :
    item.toJson.member? "name".toList = some (.text item.name) :=
  Json.member?_ofFields Attribute.keys (by rfl) (by decide)
    ("name".toList, some (.text item.name)) (by simp)

theorem member?_attribute_default (item : Attribute) :
    item.toJson.member? "default".toList =
      item.default.map DefaultValue.toJson :=
  Json.member?_ofFields Attribute.keys (by rfl) (by decide)
    ("default".toList, item.default.map DefaultValue.toJson) (by simp)

theorem member?_element_name (element : Element) :
    element.toJson.member? "name".toList = some (.text element.name) :=
  Json.member?_ofFields Element.keys (by rfl) (by decide)
    ("name".toList, some (.text element.name)) (by simp)

theorem member?_element_attributes (element : Element) :
    element.toJson.member? "attributes".toList =
      some (.array (element.attributes.map Attribute.toJson)) :=
  Json.member?_ofFields Element.keys (by rfl) (by decide)
    ("attributes".toList,
      some (.array (element.attributes.map Attribute.toJson))) (by simp)

/-- Where the elements stand in the JSON form of a document. -/
def elementsPath : List Text :=
  ["contributions", "html", "elements"].map String.toList

theorem at?_elementsPath (document : WebTypes) :
    document.toJson.at? elementsPath =
      some (.array
        (document.contributions.html.elements.map Element.toJson)) := by
  have contributions : document.toJson.member? "contributions".toList =
      some document.contributions.toJson :=
    Json.member?_ofFields WebTypes.keys (by rfl) (by decide)
      ("contributions".toList, some document.contributions.toJson) (by simp)
  have html : document.contributions.toJson.member? "html".toList =
      some document.contributions.html.toJson :=
    Json.member?_ofFields ["html".toList] (by rfl) (by decide)
      ("html".toList, some document.contributions.html.toJson) (by simp)
  have elements :
      document.contributions.html.toJson.member? "elements".toList =
        some (.array
          (document.contributions.html.elements.map Element.toJson)) :=
    Json.member?_ofFields ["elements".toList] (by rfl) (by decide)
      ("elements".toList, some (.array
        (document.contributions.html.elements.map Element.toJson))) (by simp)
  simp only [elementsPath, List.map_cons, List.map_nil, Json.at?,
    contributions, html, elements, Option.bind_some]

/-! ## Documents -/

/-- What the JSON of an element says of the defaults of a component. -/
def WritesDefaults (component : Component) (element : Json) : Prop :=
  element.member? "name".toList = some (.text component.tag) ∧
    ∃ attributes,
      element.member? "attributes".toList = some (.array attributes) ∧
        List.Forall₂
          (fun property item =>
            item.member? "name".toList = some (.text property.name) ∧
              WritesDefault property (item.member? "default".toList))
          component.props attributes

/-- What an element that is read back says of the defaults of a component. -/
def KeepsDefaults (component : Component) (element : Element) : Prop :=
  element.name = component.tag ∧
    List.Forall₂
      (fun property item =>
        item.name = property.name ∧
          (item.default.isSome = true ↔ KeepsDefault property))
      component.props element.attributes

theorem writesDefaults_ofComponent (component : Component) :
    WritesDefaults component (Element.ofComponent component).toJson := by
  refine ⟨member?_element_name _, _, member?_element_attributes _, ?_⟩
  change List.Forall₂ _ component.props
    ((component.props.map Attribute.ofProperty).map Attribute.toJson)
  rw [List.map_map, List.forall₂_map_right_iff, List.forall₂_same]
  intro property _
  refine ⟨member?_attribute_name _, ?_⟩
  rw [Function.comp_apply, member?_attribute_default]
  exact writesDefault_ofProperty property

theorem keepsDefaults_ofComponent (component : Component) :
    KeepsDefaults component (Element.ofComponent component).reread := by
  refine ⟨rfl, ?_⟩
  change List.Forall₂ _ component.props
    ((component.props.map Attribute.ofProperty).map Attribute.reread)
  rw [List.map_map, List.forall₂_map_right_iff, List.forall₂_same]
  intro property _
  exact ⟨rfl, isSome_reread_ofProperty_iff property⟩

theorem isStandard_ofCorpus (corpus : Corpus) (library : Text) :
    (WebTypes.ofCorpus corpus library).IsStandard := by
  obtain ⟨components, -, sorted⟩ := exists_perm_elements corpus
  intro element member
  have listed : element ∈ components.map Element.ofComponent := by
    rw [← sorted]
    exact member
  obtain ⟨component, -, rfl⟩ := List.mem_map.mp listed
  exact isStandard_ofComponent component

/-- The document of a corpus is read from its text with an element for each
component and an attribute for each property. The member for a default is a
boolean, a number or a string, and a default is read back, unless the text of a
number-typed property reads as infinity or as no number: then it is `null`, and
no default is read back. -/
theorem defaults_of_corpus (corpus : Corpus) (library : Text) :
    ∃ json document components elements,
      Json.read? (WebTypes.ofCorpus corpus library).toJson.pretty =
          some json ∧
        WebTypes.ofJson? json = some document ∧
        components.Perm corpus.components ∧
        json.at? elementsPath = some (.array elements) ∧
        List.Forall₂ WritesDefaults components elements ∧
        List.Forall₂ KeepsDefaults components
          document.contributions.html.elements := by
  obtain ⟨components, perm, sorted⟩ := exists_perm_elements corpus
  have elements :
      (WebTypes.ofCorpus corpus library).contributions.html.elements =
        components.map Element.ofComponent := sorted
  have standard := isStandard_ofCorpus corpus library
  have read := Json.read?_pretty
    (WebTypes.isReading.isWritten _ standard)
  have decoded := WebTypes.isReading.decode?_encode _ standard
  have path := at?_elementsPath (WebTypes.ofCorpus corpus library)
  rw [elements, List.map_map] at path
  have reread :
      (WebTypes.ofCorpus corpus
          library).reread.contributions.html.elements =
        components.map (Element.reread ∘ Element.ofComponent) := by
    rw [← List.map_map, ← elements]
    rfl
  refine ⟨_, _, components, _, read, decoded, perm, path, ?_, ?_⟩
  · rw [List.forall₂_map_right_iff, List.forall₂_same]
    exact fun component _ => writesDefaults_ofComponent component
  · rw [reread, List.forall₂_map_right_iff, List.forall₂_same]
    exact fun component _ => keepsDefaults_ofComponent component

/-! ## A gauge without a greatest value -/

def gaugeComponent : Component :=
  { Component.ofTag "y-gauge".toList with
    props :=
      [⟨"max".toList, none, .ofText "^[number]".toList,
        some "Infinity".toList⟩] }

def gaugeCorpus : Corpus :=
  ⟨"1.0.0".toList, ⟨2024, 5, 1, 10, 20, 30, 0⟩, [gaugeComponent]⟩

/-- A default of infinity is written as `null`, and none is read back. -/
theorem gauge_max_lost :
    (gaugeComponent.props.map Property.default = [some "Infinity".toList]) ∧
      ∃ json document element item,
        Json.read? (WebTypes.ofCorpus gaugeCorpus
            "y-ui".toList).toJson.pretty = some json ∧
          WebTypes.ofJson? json = some document ∧
          json.at? elementsPath = some (.array [element]) ∧
          element.member? "attributes".toList = some (.array [item]) ∧
          item.member? "default".toList = some .null ∧
          document.contributions.html.elements.map
            (fun element => element.attributes.map Attribute.default) =
              [[none]] := by
  have elements : WebTypes.elements gaugeCorpus =
      [Element.ofComponent gaugeComponent] := by
    simp [WebTypes.elements, gaugeCorpus]
  have standard := isStandard_ofCorpus gaugeCorpus "y-ui".toList
  have path := at?_elementsPath (WebTypes.ofCorpus gaugeCorpus "y-ui".toList)
  have listed : (WebTypes.ofCorpus gaugeCorpus
      "y-ui".toList).contributions.html.elements =
        [Element.ofComponent gaugeComponent] := elements
  rw [listed] at path
  refine ⟨rfl, _, _, _, _,
    Json.read?_pretty (WebTypes.isReading.isWritten _ standard),
    WebTypes.isReading.decode?_encode _ standard, path,
    member?_element_attributes _, ?_, ?_⟩
  · rw [member?_attribute_default]
    rfl
  · change ((WebTypes.elements gaugeCorpus).map Element.reread).map
      (fun element => element.attributes.map Attribute.default) = [[none]]
    rw [elements]
    rfl

end Editor

end ComponentDocs
