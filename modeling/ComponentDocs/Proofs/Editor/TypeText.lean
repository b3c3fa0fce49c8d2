import Mathlib.Data.List.Forall2
import ComponentDocs.Editor.WebTypes
import ComponentDocs.Proofs.Assembly.Entities
import ComponentDocs.Proofs.TypeExpression.Form

/-!
The type text of attributes: which type cells leave it empty.
-/

namespace ComponentDocs.Editor

open TypeExpression (IsNamed IsVoid)

/-! ## Type texts -/

theorem display_ne_nil (raw : Text) {members : List Text}
    (several : 2 ≤ members.length) :
    TypeExpression.display ⟨raw, .union members⟩ ≠ [] := by
  rcases members with _ | ⟨first, _ | ⟨second, others⟩⟩
  · exact absurd several (by decide)
  · exact absurd several (Nat.not_succ_le_self 1)
  · change Text.join " | ".toList (first :: second :: others) ≠ []
    rw [Text.join_cons_cons]
    simp

theorem typeText_ne_nil (raw : Text) {form : TypeForm}
    (named : IsNamed form) : typeText ⟨raw, form⟩ ≠ [] := by
  cases named with
  | simple name =>
      cases name with
      | nil => exact List.cons_ne_nil _ _
      | cons first rest => exact List.cons_ne_nil first rest
  | union several => exact display_ne_nil raw several

/-- The type text of an expression is empty exactly when the expression is
void. -/
theorem typeText_ofText_eq_nil_iff (raw : Text) :
    typeText (TypeExpression.ofText raw) = [] ↔ IsVoid raw := by
  rw [TypeExpression.ofText]
  rcases TypeExpression.normalForm_cases raw with
    ⟨named, notVoid⟩ | ⟨form, isVoid⟩ | ⟨content, form, empty⟩
  · exact iff_of_false (typeText_ne_nil raw named) notVoid
  · rw [form]
    exact iff_of_true rfl isVoid
  · rw [form]
    exact empty

theorem typeText_of_blank {raw : Text} (blank : Text.trim raw = []) :
    typeText (TypeExpression.ofText raw) = "any".toList := by
  have form : TypeExpression.normalForm raw = .simple [] := by
    rw [TypeExpression.normalForm, TypeExpression.matchingRule, blank]
    decide
  rw [TypeExpression.ofText, form]
  rfl

/-! ## Documents -/

theorem perm_elements (corpus : Corpus) :
    (WebTypes.elements corpus).Perm
      (corpus.components.map Element.ofComponent) :=
  List.mergeSort_perm _ _

/-- Each property of an assembled component has an attribute in the document
of every corpus that lists the component, in the same order. The type text of
the attribute is empty exactly when the type cell is void; a blank cell gives
`any`. -/
theorem attribute_types {slug page : Text} {options : ParseOptions}
    {component : Component}
    (assembled : Assembly.component slug page options = .ok component)
    {corpus : Corpus} (listed : component ∈ corpus.components)
    (library : Text) :
    Element.ofComponent component ∈
        (WebTypes.ofCorpus corpus library).contributions.html.elements ∧
      List.Forall₂
        (fun property item =>
          item.name = property.name ∧
            (item.value.type = [] ↔ IsVoid property.type.raw) ∧
            (Text.trim property.type.raw = [] →
              item.value.type = "any".toList))
        component.props (Element.ofComponent component).attributes := by
  constructor
  · exact (perm_elements corpus).mem_iff.mpr
      (List.mem_map_of_mem listed)
  · change List.Forall₂ _ component.props
      (component.props.map Attribute.ofProperty)
    rw [List.forall₂_map_right_iff, List.forall₂_same]
    intro property member
    have type := Assembly.type_of_mem_props assembled member
    have text : (Attribute.ofProperty property).value.type =
        typeText (TypeExpression.ofText property.type.raw) :=
      congrArg typeText type
    rw [text]
    exact ⟨rfl, typeText_ofText_eq_nil_iff _, typeText_of_blank⟩

/-! ## A slider with void types -/

def sliderPage : Text :=
  Text.join ['\n'] <|
    ["---", "title: Slider", "---", "## API", "### Attributes", "",
      "| Name | Type |", "| --- | --- |", "| size | ^[string] |",
      "| max | / |", "| marks | ^[object]\x60\x60 |", "| label | |"].map
        String.toList

def sliderComponent : Component :=
  { Component.ofTag "y-slider".toList with
    props :=
      [⟨"size".toList, none, .ofText "^[string]".toList, none⟩,
        ⟨"max".toList, none, .ofText "/".toList, none⟩,
        ⟨"marks".toList, none, .ofText "^[object]\x60\x60".toList, none⟩,
        ⟨"label".toList, none, .ofText [], none⟩] }

def sliderCorpus : Corpus :=
  ⟨"1.0.0".toList, ⟨2024, 5, 1, 10, 20, 30, 0⟩, [sliderComponent]⟩

theorem sliderComponent_assembled :
    Assembly.component "slider".toList sliderPage .default =
      .ok sliderComponent := by
  decide +kernel

theorem slider_attribute_types :
    Element.ofComponent sliderComponent ∈
        (WebTypes.ofCorpus sliderCorpus
          "y-ui".toList).contributions.html.elements ∧
      List.Forall₂
        (fun property item =>
          item.name = property.name ∧
            (item.value.type = [] ↔ IsVoid property.type.raw) ∧
            (Text.trim property.type.raw = [] →
              item.value.type = "any".toList))
        sliderComponent.props
        (Element.ofComponent sliderComponent).attributes :=
  attribute_types sliderComponent_assembled (List.mem_singleton_self _)
    "y-ui".toList

/-- A type cell of one slash gives an attribute without a type. -/
theorem slider_max_untyped :
    Assembly.component "slider".toList sliderPage .default =
        .ok sliderComponent ∧
      sliderComponent ∈ sliderCorpus.components ∧
      ∃ element ∈ (WebTypes.ofCorpus sliderCorpus
          "y-ui".toList).contributions.html.elements,
        element.name = sliderComponent.tag ∧
          ∃ item ∈ element.attributes,
            item.name = "max".toList ∧ item.value.type = [] := by
  refine ⟨sliderComponent_assembled, List.mem_singleton_self _,
    Element.ofComponent sliderComponent, ?_, rfl, ?_⟩
  · exact (perm_elements sliderCorpus).mem_iff.mpr
      (List.mem_singleton_self _)
  · decide +kernel

end ComponentDocs.Editor
