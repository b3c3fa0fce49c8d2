import ComponentDocs.Proofs.Assembly.Entities
import ComponentDocs.Proofs.Page.Cell
import ComponentDocs.Proofs.TypeExpression.Escaped

/-!
The types that a component lists: each is read from a cell of a table, so that
its pipes are escaped and only slashes give alternatives.
-/

namespace ComponentDocs

open Page

/-- The types of the entities of a kind, in the order of the component. -/
def EntityKind.types (component : Component) :
    EntityKind → List TypeExpression
  | property => component.props.map Property.type
  | event => component.events.map Event.type
  | slot => component.slots.map Slot.type
  | method => component.methods.map Method.type

namespace Assembly

/-! ## Rows of entities -/

/-- What is collected is what some row gives. -/
theorem exists_row_of_mem_collect {α : Type} {name : α → Text}
    {entity? : Row → Option α} {rows : List Row} {item : α}
    (member : item ∈ collect name entity? rows) :
    ∃ row ∈ rows, entity? row = some item := by
  rw [collect_eq_latest] at member
  exact List.mem_filterMap.mp (mem_of_mem_latest name member)

theorem exists_row_of_mem_types {slug : Text} {options : ParseOptions}
    {front : FrontMatter} {body title : Text} {kind : EntityKind}
    {type : TypeExpression}
    (member : type ∈ kind.types (ofParts slug options front body title)) :
    ∃ row ∈ sectionRows options body kind.sectionName,
      type = typeOfRow row := by
  have ofRows {α : Type} {name : α → Text} {rows : List Row}
      (typeOf : α → TypeExpression) (build : Row → Text → α)
      (typed : ∀ row written, typeOf (build row written) = typeOfRow row)
      (listed : type ∈ (collect name
        (fun row => (entityName? row).map (build row)) rows).map typeOf) :
      ∃ row ∈ rows, type = typeOfRow row := by
    obtain ⟨item, collected, rfl⟩ := List.mem_map.mp listed
    obtain ⟨row, inRows, read⟩ := exists_row_of_mem_collect collected
    obtain ⟨written, -, rfl⟩ := Option.map_eq_some_iff.mp read
    exact ⟨row, inRows, typed row written⟩
  cases kind with
  | property => exact ofRows Property.type _ (fun _ _ => rfl) member
  | event => exact ofRows Event.type _ (fun _ _ => rfl) member
  | slot => exact ofRows Slot.type _ (fun _ _ => rfl) member
  | method => exact ofRows Method.type _ (fun _ _ => rfl) member

/-! ## Types of cells -/

theorem normalized_typeOfRow (row : Row) :
    (typeOfRow row).normalized =
      TypeExpression.normalForm (typeOfRow row).raw := by
  unfold typeOfRow
  cases row.cellUnder? typeHeaders with
  | none => rfl
  | some cell => rfl

/-- A type is written in a cell, or there is no column of types. -/
theorem isCellText_typeOfRow {options : ParseOptions} {body name : Text}
    {row : Row} (member : row ∈ sectionRows options body name) :
    IsCellText (typeOfRow row).raw := by
  have inTable := (mem_entityRows.mp member).1
  unfold typeOfRow
  cases under : row.cellUnder? typeHeaders with
  | none =>
      exact isCellText_nil
  | some cell =>
      exact isCellText_of_mem_readTable inTable (cellUnder?_mem under).1

/-- A union in a component comes from slashes outside of code spans. It has a
member for each piece between them that is not blank, in order, and pipes add
none. -/
theorem union_of_slashPieces {slug page : Text} {options : ParseOptions}
    {component : Component}
    (assembled : Assembly.component slug page options = .ok component)
    {kind : EntityKind} {type : TypeExpression}
    (member : type ∈ kind.types component) {members : List Text}
    (isUnion : type.normalized = .union members) :
    ¬ TypeExpression.IsSpanned '/' false type.raw ∧
      members.length = (TypeExpression.slashAlternatives type.raw).length ∧
      List.Forall₂
        (fun member piece =>
          TypeExpression.IsSingle member (TypeExpression.normalForm piece))
        members (TypeExpression.slashAlternatives type.raw) := by
  obtain ⟨front, body, title, -, -, rfl⟩ := component_eq_ok assembled
  obtain ⟨row, inSection, rfl⟩ := exists_row_of_mem_types member
  have isCellText := isCellText_typeOfRow inSection
  rw [normalized_typeOfRow] at isUnion
  obtain ⟨unspanned, paired⟩ := TypeExpression.forall₂_of_normalForm
    isCellText.escaped isCellText.trimmed isUnion
  exact ⟨unspanned, paired.length_eq, paired⟩

/-- An event of a tree, with a callback, a text with a slash and a pipe of its
own, nothing and a name between its slashes. -/
def treePage : Text :=
  Text.join ['\n'] <|
    ["---", "title: Tree", "---", "## API", "### Events", "",
      "| Name | Type |", "| --- | --- |",
      "| drop | ^[Function]\x60(a \\| b) => c\x60 / \x60d/e \\| f\x60 / / g |"].map
        String.toList

def dropType : TypeExpression where
  raw := "^[Function]\x60(a \\| b) => c\x60 / \x60d/e \\| f\x60 / / g".toList
  normalized :=
    .union ["(a | b) => c".toList, "d/e | f".toList, "g".toList]

def treeComponent : Component :=
  { Component.ofTag "y-tree".toList with
    events := [⟨"drop".toList, none, dropType⟩] }

theorem treeDrop_of_slashPieces :
    Assembly.component "tree".toList treePage .default = .ok treeComponent ∧
      dropType ∈ EntityKind.event.types treeComponent ∧
      ¬ TypeExpression.IsSpanned '/' false dropType.raw ∧
      dropType.normalized.members.length =
        (TypeExpression.slashAlternatives dropType.raw).length ∧
      List.Forall₂
        (fun member piece =>
          TypeExpression.IsSingle member (TypeExpression.normalForm piece))
        dropType.normalized.members
        (TypeExpression.slashAlternatives dropType.raw) := by
  have assembled : Assembly.component "tree".toList treePage .default =
      .ok treeComponent := by
    decide +kernel
  have listed : dropType ∈ EntityKind.event.types treeComponent := by
    decide
  exact ⟨assembled, listed, union_of_slashPieces assembled listed rfl⟩

end Assembly

end ComponentDocs
