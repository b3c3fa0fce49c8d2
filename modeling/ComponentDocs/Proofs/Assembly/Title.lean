import ComponentDocs.Proofs.Assembly.Entities
import ComponentDocs.Proofs.Page.FrontValues

/-!
Pages that give no component: their front matter is not opened, not closed or
without a title that has a word. What stands below the front matter is never
the reason, so that no API block makes assembling fail.
-/

namespace ComponentDocs.Assembly

open Page
open FrontMatter (Opens Closes blockLines IsLastValue)

/-! ## Names in titles -/

/-- A title without a word names no component, and neither does a missing
title. -/
theorem componentName_fails_iff {slug : Text} {front : FrontMatter} :
    (∃ failure, componentName slug front = .error failure) ↔
      ∀ title, front.value? titleKey = some title →
        ∀ character ∈ title, Text.isBlank character = true := by
  simp only [← Text.words_eq_nil_iff]
  rw [componentName, FrontMatter.get?_eq]
  cases front.value? titleKey with
  | none =>
      simp
  | some title =>
      cases title with
      | nil =>
          simp [Text.words]
      | cons first rest =>
          cases found : Text.words (first :: rest) with
          | nil => simp [found]
          | cons name others => simp [found]

theorem category_of_componentName {slug : Text} {front : FrontMatter}
    {failure : Failure} (fails : componentName slug front = .error failure) :
    failure.category = "parse".toList := by
  unfold componentName at fails
  split at fails
  · rw [← Except.error.inj fails]
    rfl
  · split at fails
    · rw [← Except.error.inj fails]
      rfl
    · cases fails

theorem component_fails_iff_of_read {slug page body : Text}
    {options : ParseOptions} {front : FrontMatter}
    (parts : FrontMatter.read page = .ok (front, body)) {failure : Failure} :
    Assembly.component slug page options = .error failure ↔
      componentName slug front = .error failure := by
  rw [component_of_read parts]
  cases componentName slug front with
  | error other => simp [Except.map]
  | ok name => simp [Except.map]

/-! ## Pages -/

/-- A page without a title: its first line is no mark, or no later line is, or
the last line between the two that gives the title is missing or gives nothing
but blanks. -/
inductive LacksTitle (page : Text) : Prop
  | unopened (unopened : ¬ Opens page)
  | unclosed (unclosed : ¬ Closes page)
  | untitled (blank : ∀ title,
      IsLastValue titleKey (blockLines page) title →
        ∀ character ∈ title, Text.isBlank character = true)

theorem component_fails_iff {slug page : Text} {options : ParseOptions} :
    (∃ failure, Assembly.component slug page options = .error failure) ↔
      LacksTitle page := by
  rcases FrontMatter.read_cases page with
    ⟨unopened, body, parts⟩ | ⟨-, unclosed, unread⟩ |
      ⟨opened, closed, body, parts⟩
  · simp only [component_fails_iff_of_read parts, componentName_fails_iff]
    exact ⟨fun _ => .unopened unopened, fun _ title given => nomatch given⟩
  · exact ⟨fun _ => .unclosed unclosed,
      fun _ => ⟨_, component_of_read_error unread⟩⟩
  · simp only [component_fails_iff_of_read parts, componentName_fails_iff,
      FrontMatter.value?_foldl_readLine_iff]
    constructor
    · exact .untitled
    · intro lacks
      cases lacks with
      | unopened unopened => exact absurd opened unopened
      | unclosed unclosed => exact absurd closed unclosed
      | untitled blank => exact blank

theorem category_of_component {slug page : Text} {options : ParseOptions}
    {failure : Failure}
    (fails : Assembly.component slug page options = .error failure) :
    failure.category = "parse".toList := by
  rcases FrontMatter.read_cases page with
    ⟨-, body, parts⟩ | ⟨-, -, unread⟩ | ⟨-, -, body, parts⟩
  · exact category_of_componentName ((component_fails_iff_of_read parts).mp fails)
  · rw [component_of_read_error unread, Except.error.injEq] at fails
    rw [← fails]
    rfl
  · exact category_of_componentName ((component_fails_iff_of_read parts).mp fails)

/-- Assembling fails exactly on pages without a title, the failure is one of
parsing, and it is the same whatever is written below front matter that can be
read. -/
theorem component_fails_onTitle (slug : Text) (options : ParseOptions) :
    (∀ page,
      (∃ failure, Assembly.component slug page options = .error failure) ↔
        LacksTitle page) ∧
    (∀ page failure,
      Assembly.component slug page options = .error failure →
        failure.category = "parse".toList) ∧
    ∀ head parts, head.getLast? = some '\n' →
      FrontMatter.read head = .ok parts → ∀ below failure,
        (Assembly.component slug (head ++ below) options = .error failure ↔
          Assembly.component slug head options = .error failure) := by
  refine ⟨fun _ => component_fails_iff, fun _ _ => category_of_component, ?_⟩
  rintro head ⟨front, body⟩ feed parts below failure
  rw [component_fails_iff_of_read parts, component_fails_iff_of_read
    (FrontMatter.read_append_of_ok feed parts below)]

/-- Front matter whose second title has been left blank, between quotes. -/
def draftHead : Text :=
  "\ufeff--- \ntitle: Draft\n# title: Form\n title : \" \t\"\n---\n".toList

/-- An API block with a table that is none, and with a code block left open. -/
def draftApi : Text :=
  "## API\n### Attributes\n| Name\n---\n### Exposes\n\x60\x60\x60\n".toList

theorem lacksTitle_draftHead : LacksTitle draftHead := by
  apply LacksTitle.untitled
  intro title isLast
  have given := FrontMatter.value?_foldl_readLine_iff.mpr isLast
  have known :
      ((blockLines draftHead).foldl FrontMatter.readLine .empty).value?
        titleKey = some " \t".toList := by
    decide +kernel
  rw [known, Option.some.injEq] at given
  rw [← given]
  decide

theorem draft_fails_onTitle :
    LacksTitle draftHead ∧ draftHead.getLast? = some '\n' ∧
    ∃ parts failure,
      FrontMatter.read draftHead = .ok parts ∧
      Assembly.component "draft".toList draftHead .default = .error failure ∧
      failure.category = "parse".toList ∧
      Assembly.component "draft".toList (draftHead ++ draftApi) .default =
        .error failure := by
  obtain ⟨failsIff, category, below⟩ :=
    component_fails_onTitle "draft".toList .default
  obtain ⟨failure, fails⟩ := (failsIff draftHead).mpr lacksTitle_draftHead
  have feed : draftHead.getLast? = some '\n' := by
    decide +kernel
  have parts :
      FrontMatter.read draftHead = .ok (⟨[(titleKey, " \t".toList)]⟩, []) := by
    decide +kernel
  exact ⟨lacksTitle_draftHead, feed, _, failure, parts, fails,
    category draftHead failure fails,
    (below draftHead _ feed parts draftApi failure).mpr fails⟩

end ComponentDocs.Assembly
