import ComponentDocs.Proofs.Assembly.Entities
import ComponentDocs.Proofs.Component.Name

/-!
The names that a component lists: whatever the page holds, each list has every
name once, and a name is a hyphenated text without back-ticks and slashes.
-/

namespace ComponentDocs.Assembly

open Page

/-! ## Names of cells -/

theorem stripBadges_subset (inBadge : Bool) (text : Text) :
    stripBadges inBadge text ⊆ text := by
  fun_induction stripBadges inBadge text with
  | case1 inBadge =>
      exact List.Subset.refl []
  | case2 rest inductionHypothesis =>
      exact List.subset_cons_of_subset _ inductionHypothesis
  | case3 inBadge rest outside inductionHypothesis =>
      exact List.cons_subset_cons _ inductionHypothesis
  | case4 inBadge rest inductionHypothesis =>
      exact List.subset_cons_of_subset _ <|
        List.subset_cons_of_subset _ inductionHypothesis
  | case5 first rest notClosing notOpening inductionHypothesis =>
      exact List.subset_cons_of_subset _ inductionHypothesis
  | case6 inBadge first rest notClosing notOpening outside
      inductionHypothesis =>
      exact List.cons_subset_cons _ inductionHypothesis

/-- A name as it stands in a component. -/
structure IsEntityName (name : Text) : Prop where
  nonempty : name ≠ []
  visible : ∀ character ∈ name, Text.isBlank character = false
  noUnderscore : '_' ∉ name
  noTick : TypeExpression.tick ∉ name
  noSlash : '/' ∉ name
  noLastHyphen : name.getLast? ≠ some '-'

/-- A character that hyphenation does not write stands in the name of a cell
only if it stands before the first slash of the cell, outside of badges. -/
theorem mem_of_mem_nameOfCell {raw : Text} {character : Char}
    (member : character ∈ nameOfCell raw) (notHyphen : character ≠ '-')
    (ascii : character.toNat < 128) (notLower : character.isLower = false) :
    character ∈
      (stripBadges false (raw.filter (· != TypeExpression.tick))).takeWhile
        (· != '/') := by
  cases Name.mem_kebab member with
  | hyphen => exact absurd rfl notHyphen
  | kept kept _ _ => exact kept
  | lowered _ isCapital lowered =>
      have small := Text.isSmall_of_mem_lowercaseChar isCapital lowered
      exact absurd rfl (small.ne_of_not_isLower ascii notLower)

theorem isEntityName_nameOfCell {raw : Text} (nonempty : nameOfCell raw ≠ []) :
    IsEntityName (nameOfCell raw) where
  nonempty := nonempty
  visible := fun _ member => Name.isBlank_of_mem_kebab member
  noUnderscore := Name.underscore_not_mem_kebab _
  noTick := by
    intro member
    have written := mem_of_mem_nameOfCell member (by decide) (by decide)
      (by decide)
    have kept := stripBadges_subset _ _ (List.takeWhile_subset _ written)
    exact absurd (List.mem_filter.mp kept).2 (by decide)
  noSlash := by
    intro member
    have written := mem_of_mem_nameOfCell member (by decide) (by decide)
      (by decide)
    exact absurd (List.mem_takeWhile_imp written) (by decide)
  noLastHyphen := Name.getLast?_kebab_ne _

theorem isEntityName_of_entityName? {row : Row} {name : Text}
    (named : entityName? row = some name) : IsEntityName name := by
  unfold entityName? at named
  split at named
  · rename_i header raw found
    dsimp only at named
    split at named
    · cases named
    · rename_i nonempty
      obtain rfl := Option.some.inj named
      exact isEntityName_nameOfCell (by simpa using nonempty)
  · cases named

/-! ## Names of lists -/

theorem nodup_collect_names {α : Type} (name : α → Text)
    (entity? : Row → Option α) (rows : List Row) :
    ((collect name entity? rows).map name).Nodup := by
  rw [collect_eq_latest, map_name_latest]
  exact nodup_eraseDups _

theorem nodup_names_ofParts (slug : Text) (options : ParseOptions)
    (front : FrontMatter) (body title : Text) (kind : EntityKind) :
    (kind.names (ofParts slug options front body title)).Nodup := by
  cases kind with
  | property => exact nodup_collect_names Property.name property? _
  | event => exact nodup_collect_names Event.name event? _
  | slot => exact nodup_collect_names Slot.name slot? _
  | method => exact nodup_collect_names Method.name method? _

/-- In each list of an assembled component the names are distinct, and each of
them is a name of an entity. -/
theorem names_distinct_isEntityName {slug page : Text} {options : ParseOptions}
    {component : Component}
    (assembled : Assembly.component slug page options = .ok component)
    (kind : EntityKind) :
    (kind.names component).Nodup ∧
      ∀ name ∈ kind.names component, IsEntityName name := by
  obtain ⟨front, body, title, -, -, rfl⟩ := component_eq_ok assembled
  refine ⟨nodup_names_ofParts _ _ _ _ _ kind, fun name member => ?_⟩
  obtain ⟨row, -, named⟩ := (mem_names_ofParts _ _ _ _ _ kind name).mp member
  exact isEntityName_of_entityName? named

/-- A page whose two rows name one event, the first of them between back-ticks
and beside an alternative and a badge. -/
def tablePage : Text :=
  Text.join ['\n'] <|
    ["---", "title: Table", "---", "## API", "### Events", "",
      "| Name | Description |", "| --- | --- |",
      "| \x60onRowChange\x60^[new] / row-change | changed |",
      "| on_row  change | changed again |"].map String.toList

def tableComponent : Component :=
  { Component.ofTag "y-table".toList with
    events := [
      ⟨"on-row-change".toList, some "changed again".toList,
        TypeExpression.ofText []⟩] }

theorem tableEvents_distinct_isEntityName :
    Assembly.component "table".toList tablePage .default = .ok tableComponent ∧
      (EntityKind.event.names tableComponent).Nodup ∧
      ∀ name ∈ EntityKind.event.names tableComponent, IsEntityName name := by
  have assembled : Assembly.component "table".toList tablePage .default =
      .ok tableComponent := by
    decide +kernel
  exact ⟨assembled, names_distinct_isEntityName assembled .event⟩

end ComponentDocs.Assembly
