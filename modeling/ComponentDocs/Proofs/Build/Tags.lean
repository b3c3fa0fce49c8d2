import ComponentDocs.Proofs.Assembly.Entities
import ComponentDocs.Proofs.Build.Corpus
import ComponentDocs.Proofs.Component.Name

/-!
The tags of a corpus that has been built: they are distinct, and each of them
is the tag of a title or of a file name, so that it neither starts nor ends with
a blank.
-/

namespace ComponentDocs

open Files (Disk)

/-- The components of a corpus can be told apart by their tags, also when blanks
around a tag do not count. -/
structure Corpus.IsKeyed (corpus : Corpus) : Prop where
  nodup_tags : (corpus.components.map Component.tag).Nodup
  trim_tag : ∀ component ∈ corpus.components,
    Text.trim component.tag = component.tag

namespace Build

/-- The components of a build are those of pages that have been read. -/
theorem exists_pages_of_corpus_run {options : ParseOptions} {root : Text}
    {source : ReleaseSource} {now : Instant} {disk : Disk} {built : Corpus}
    {report : Report}
    (outcome :
      ((corpus options root source now).run disk).1 = .ok (built, report)) :
    ∃ pages : List Page,
      (∀ page ∈ pages, ∃ outcome,
        page = (page.1, assemble options page.1 outcome)) ∧
        built.components = (ofPages options pages).components := by
  rw [corpus, FileTask.run_bind] at outcome
  split at outcome
  · rw [FileTask.run_bind] at outcome
    cases found : ((pagePlaces root).run
        ((FileTask.isDirectory root).run disk).2).1 with
    | error failure =>
        rw [found] at outcome
        cases outcome
    | ok places =>
        rw [found] at outcome
        simp only [FileTask.run_bind, readPages_run, FileTask.run_pure,
          Except.ok.injEq, Prod.mk.injEq] at outcome
        obtain ⟨rfl, -⟩ := outcome
        refine ⟨_, fun page member => ?_, rfl⟩
        obtain ⟨place, -, rfl⟩ := List.mem_map.mp member
        exact ⟨_, rfl⟩
  · cases outcome

theorem exists_tag_componentOf (options : ParseOptions) (slug : Text)
    (outcome : Except FileFailure Text) :
    ∃ name, (componentOf options (slug, assemble options slug outcome)).tag =
      Name.tag name options.componentPrefix := by
  cases assembled : assemble options slug outcome with
  | error failure =>
      exact ⟨slug, rfl⟩
  | ok component =>
      cases outcome with
      | error failure =>
          cases assembled
      | ok content =>
          obtain ⟨front, body, title, -, -, rfl⟩ :=
            Assembly.component_eq_ok assembled
          exact ⟨title, rfl⟩

/-- A corpus that has been built can be looked up by its tags. -/
theorem isKeyed_of_corpus_run {options : ParseOptions} {root : Text}
    {source : ReleaseSource} {now : Instant} {disk : Disk} {built : Corpus}
    {report : Report}
    (outcome :
      ((corpus options root source now).run disk).1 = .ok (built, report)) :
    built.IsKeyed := by
  obtain ⟨pages, areRead, components⟩ := exists_pages_of_corpus_run outcome
  rw [components_ofPages] at components
  constructor
  · rw [components, Assembly.map_name_latest]
    exact Assembly.nodup_eraseDups _
  · intro component member
    rw [components] at member
    obtain ⟨page, pageMember, rfl⟩ :=
      List.mem_map.mp (Assembly.mem_of_mem_latest _ member)
    obtain ⟨outcome, isRead⟩ := areRead page pageMember
    obtain ⟨name, isTag⟩ := exists_tag_componentOf options page.1 outcome
    rw [isRead, isTag]
    exact Name.trim_tag name options.componentPrefix

end Build

end ComponentDocs
