import ComponentDocs.Proofs.Assembly.Entities
import ComponentDocs.Proofs.Page.FrontMatter
import ComponentDocs.Proofs.Page.TableBreak

/-!
Pages with a code block in the API block. Headings are found by their blocks,
so that code holds none, but tables are found by their lines, so that a line of
code with a pipe is taken for the header row when it can be one. Code whose
lines cannot be a header row changes no list of the component.
-/

namespace ComponentDocs.Assembly

open Page
open Markdown (FencedCode TakesCode tick)

/-! ## Places for code -/

/-- A place in the API block for a code block. It may be anywhere between two
blocks, so also between the heading of a section and its table, as long as no
table of an open section reaches across it and no line of the code can be a
header row. -/
structure TakesSample (fenced : FencedCode) (options : ParseOptions)
    (above below : Text) (level : Nat) (lead : Text) : Prop where
  inApi :
    SectionTakesCode fenced above below options.apiHeading level lead
  tables : ∀ (kind : EntityKind) (deeper : Nat) (text : Text),
    openSection? lead kind.sectionName = some (deeper, text) →
      TableStands options.tableOptions text
        (sectionRest deeper (shownRest level below))
  headless : ∀ line ∈ visibleLines fenced.text,
    isHeaderLine options.tableOptions line = false

namespace TakesSample

variable {fenced : FencedCode} {options : ParseOptions}
variable {above below lead : Text} {level : Nat}
variable (sample : TakesSample fenced options above below level lead)

include sample

theorem sectionRows_insert (kind : EntityKind) :
    sectionRows options (above ++ (fenced.text ++ below)) kind.sectionName =
      sectionRows options (above ++ below) kind.sectionName := by
  rw [sectionRows, sectionRows,
    readTable_sectionText_insert sample.inApi (sample.tables kind)
      sample.headless]

theorem ofParts_insert (slug : Text) (front : FrontMatter) (name : Text) :
    ofParts slug options front (above ++ (fenced.text ++ below)) name =
      { ofParts slug options front (above ++ below) name with
        introduction := introduction? (above ++ (fenced.text ++ below)) } := by
  have attributes := sample.sectionRows_insert .property
  have events := sample.sectionRows_insert .event
  have slots := sample.sectionRows_insert .slot
  have exposes := sample.sectionRows_insert .method
  simp only [EntityKind.sectionName] at attributes events slots exposes
  rw [ofParts, ofParts]
  dsimp only
  rw [attributes, events, slots, exposes]

theorem getLast?_above : above.getLast? = some '\n' := by
  apply sample.inApi.place.starts.resolve_left
  rintro rfl
  have opened := sample.inApi.opened
  cases opened

end TakesSample

/-- A code block in the API block changes no property, event, slot or method of
the component. -/
theorem component_insert_code {slug head above below lead : Text}
    {options : ParseOptions} {component : Component} {front : FrontMatter}
    {fenced : FencedCode} {level : Nat}
    (assembled :
      Assembly.component slug (head ++ (above ++ below)) options =
        .ok component)
    (parts :
      FrontMatter.read (head ++ (above ++ below)) = .ok (front, above ++ below))
    (sample : TakesSample fenced options above below level lead) :
    Assembly.component slug (head ++ (above ++ (fenced.text ++ below)))
        options =
      .ok { component with
        introduction := introduction? (above ++ (fenced.text ++ below)) } := by
  obtain ⟨_, _, title, partsAgain, named, rfl⟩ := component_eq_ok assembled
  rw [parts, Except.ok.injEq, Prod.mk.injEq] at partsAgain
  obtain ⟨rfl, rfl⟩ := partsAgain
  have partsInsert := FrontMatter.read_append sample.getLast?_above parts
    (fenced.text ++ below)
  simp only [Assembly.component, partsInsert, named, bind, Except.bind, pure,
    Except.pure, sample.ofParts_insert]

/-! ## A dialog with an example -/

def dialogHead : Text :=
  "---\ntitle: Dialog\n---\n".toList

/-- The API block of a dialog above an example. -/
def dialogAbove : Text :=
  "## API\n\n### Attributes\n\nSet these.\n".toList

def dialogTable : Text :=
  "\n| Name | Type |\n| --- | --- |\n| open | boolean |\n".toList

/-- The API block of a dialog below an example. -/
def dialogBelow : Text :=
  dialogTable ++ "\n### Events\n\n| Name |\n| --- |\n| close |\n".toList

/-- The text of the API block above an example. -/
def dialogLead : Text :=
  "\n### Attributes\n\nSet these.\n".toList

def dialogFront : FrontMatter :=
  ⟨[(titleKey, "Dialog".toList)]⟩

def dialogComponent : Component :=
  { Component.ofTag "y-dialog".toList with
    props :=
      [{ name := "open".toList
         description := none
         type := TypeExpression.ofText "boolean".toList
         default := none }]
    events := [⟨"close".toList, none, TypeExpression.ofText []⟩] }

/-- An example with a heading, a metadata mark and an alignment row, and with a
pipe in prose. -/
def markdownExample : FencedCode where
  length := 3
  info := []
  code := "### Events\n---\n| --- | --- |\n可以 | x".toList
  long := by
    decide
  plain := by
    constructor <;> decide
  infoTicks := by
    decide
  codeTicks := by
    decide

/-- An example with a pipe. -/
def pipeExample : FencedCode :=
  { markdownExample with
    code := "a | b".toList
    codeTicks := by
      decide }

theorem dialogComponent_assembled :
    Assembly.component "dialog".toList
        (dialogHead ++ (dialogAbove ++ dialogBelow)) .default =
      .ok dialogComponent := by
  decide +kernel

theorem dialog_takesSample :
    TakesSample markdownExample .default dialogAbove dialogBelow 2
      dialogLead where
  inApi :=
    { place :=
        { starts := .inr (by decide)
          splits := by decide +kernel
          takes := by decide +kernel
          keeps := by decide +kernel }
      opened := by decide +kernel
      shown := by decide +kernel
      inside :=
        { starts := .inr (by decide)
          splits := by decide +kernel
          takes := by decide +kernel
          keeps := by decide +kernel } }
  tables := by
    intro kind deeper text opened
    have onlyAttributes :
        openSection? dialogLead kind.sectionName =
          if kind = .property then some (3, "\nSet these.\n".toList)
          else none := by
      cases kind <;> decide +kernel
    rw [onlyAttributes, Option.ite_none_right_eq_some, Option.some.injEq,
      Prod.mk.injEq] at opened
    obtain ⟨-, rfl, rfl⟩ := opened
    exact
      ⟨endsInTable_of_headless (by decide +kernel), .inl (by decide +kernel)⟩
  headless := by
    decide +kernel

theorem dialog_insert_markdownExample :
    Assembly.component "dialog".toList
        (dialogHead ++
          (dialogAbove ++ (markdownExample.text ++ dialogBelow))) .default =
      .ok { dialogComponent with
        introduction := introduction?
          (dialogAbove ++ (markdownExample.text ++ dialogBelow)) } :=
  component_insert_code dialogComponent_assembled
    (show _ = Except.ok (dialogFront, _) by decide +kernel) dialog_takesSample

/-! ## Code that counts -/

/-- A page body in two parts, with an example to put between them. -/
structure Sample where
  above : Text
  fenced : FencedCode
  below : Text

namespace Sample

/-- The names of each kind that the dialog with a body lists. -/
def listed (body : Text) : Except Failure (List (List Text)) :=
  (Assembly.component "dialog".toList (dialogHead ++ body) .default).map
    fun component =>
      [EntityKind.property, .event, .slot, .method].map
        (EntityKind.names component)

/-- Whether the names are the same with the example. -/
def IsSilent (sample : Sample) : Prop :=
  listed (sample.above ++ (sample.fenced.text ++ sample.below)) =
    listed (sample.above ++ sample.below)

instance (sample : Sample) : Decidable sample.IsSilent :=
  inferInstanceAs (Decidable (_ = _))

/-- In a list the example ends the item that holds the sections. -/
def inList : Sample where
  above := "## API\n\n10. ### Attributes\n".toList
  fenced := markdownExample
  below :=
    "\n    | Name | Type |\n    | --- | --- |\n    | open | boolean |\n\n".toList
      ++ "    ### Events\n\n    | Name |\n    | --- |\n    | close |\n".toList

/-- Below a metadata mark the example closes the metadata. -/
def belowMark : Sample where
  above := "## API\n---\n### Attributes\n".toList
  fenced := markdownExample
  below := dialogTable

/-- Without an alignment row the table of one row is too short on its own. -/
def unaligned : Sample where
  above := "## API\n\n### Attributes\n".toList
  fenced := markdownExample
  below := "\n| Name | Type |\n| open | boolean |\n".toList

/-- A heading with a pipe in its anchor does not end the table above it. -/
def belowTable : Sample where
  above :=
    "## API\n\n### Events\n\n| Name | Type |\n| --- | --- |\n".toList
      ++ "| close | void |\n\n#### Attributes \x7b#a|b\x7d\n".toList
  fenced := markdownExample
  below := dialogTable

/-- In other code the fences change sides. -/
def inCode : Sample where
  above := "## API\n\n### Attributes\n\n\x60\x60\x60\n".toList
  fenced := markdownExample
  below := "\x60\x60\x60\n".toList ++ dialogTable

end Sample

/-- A line of code with a pipe takes the place of the header row. The other
conditions on the place of the code count as well. -/
theorem pipeExample_hidesTable :
    Assembly.component "dialog".toList
        (dialogHead ++ (dialogAbove ++ dialogBelow)) .default =
      .ok dialogComponent ∧
    Assembly.component "dialog".toList
        (dialogHead ++ (dialogAbove ++ (pipeExample.text ++ dialogBelow)))
        .default =
      .ok { dialogComponent with props := [] } ∧
    ∀ sample ∈ [Sample.inList, .belowMark, .unaligned, .belowTable, .inCode],
      ¬ sample.IsSilent := by
  refine ⟨dialogComponent_assembled, by decide +kernel, ?_⟩
  simp only [List.forall_mem_cons, List.not_mem_nil, false_implies,
    implies_true, and_true]
  exact ⟨by decide +kernel, by decide +kernel, by decide +kernel,
    by decide +kernel, by decide +kernel⟩

end ComponentDocs.Assembly
