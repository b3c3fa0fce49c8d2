import ComponentDocs.Proofs.Build.Tags
import ComponentDocs.Proofs.Query.Session

/-!
What is listed can be fetched: in every session that serves a corpus that has
been built, each tag shown by a listing or a search leads to the component of
that line, and a text that leads to none is told all tags in ascending order.

It rests on two facts about built corpora, that tags are distinct and that
nothing is trimmed from a tag.
-/

namespace ComponentDocs

open Files (Disk)

/-! ## Looking up components -/

namespace Corpus

theorem find?_eq_none_iff {corpus : Corpus} {tag : Text} :
    corpus.find? tag = none ↔ tag ∉ corpus.components.map Component.tag := by
  simp [find?]

theorem find?_eq_some_iff {corpus : Corpus}
    (distinct : (corpus.components.map Component.tag).Nodup) {tag : Text}
    {component : Component} :
    corpus.find? tag = some component ↔
      component ∈ corpus.components ∧ component.tag = tag := by
  constructor
  · intro found
    exact ⟨List.mem_of_find?_eq_some found, by simpa using List.find?_some found⟩
  · rintro ⟨member, rfl⟩
    cases found : corpus.find? component.tag with
    | none =>
        exact absurd (List.mem_map_of_mem member) (find?_eq_none_iff.mp found)
    | some other =>
        have sameTag : other.tag = component.tag := by
          simpa using List.find?_some found
        rw [List.inj_on_of_nodup_map distinct (List.mem_of_find?_eq_some found)
          member sameTag]

end Corpus

namespace Query

/-! ## Lines of components -/

theorem mem_summaries {components : List Component} {summary : Summary} :
    summary ∈ summaries components ↔
      ∃ component ∈ components, Summary.ofComponent component = summary := by
  rw [summaries, List.mem_mergeSort, List.mem_map]

theorem map_tag_summaries (components : List Component) :
    (summaries components).map Summary.tag =
      (components.map Component.tag).mergeSort Text.atMost := by
  have sorted := List.map_mergeSort (f := Summary.tag)
    (r := fun left right => Text.atMost left.tag right.tag) (s := Text.atMost)
    (l := components.map Summary.ofComponent) fun _ _ _ _ => rfl
  rw [summaries, sorted, List.map_map]
  rfl

/-- The tags of a listing are those that a failed look-up names. -/
theorem map_tag_listing (corpus : Corpus) :
    (Listing.ofCorpus corpus).components.map Summary.tag = corpus.tags :=
  map_tag_summaries corpus.components

theorem ascending_tags {corpus : Corpus}
    (distinct : (corpus.components.map Component.tag).Nodup) :
    corpus.tags.Pairwise (· < ·) := by
  have sorted : corpus.tags.Pairwise (· ≤ ·) :=
    Text.pairwise_mergeSort id (corpus.components.map Component.tag)
  have stillDistinct : corpus.tags.Nodup :=
    (List.mergeSort_perm _ _).nodup_iff.mpr distinct
  exact sorted.imp₂ (fun _ _ => lt_of_le_of_ne) stillDistinct

theorem mem_tags {corpus : Corpus} {tag : Text} :
    tag ∈ corpus.tags ↔ tag ∈ corpus.components.map Component.tag :=
  List.mem_mergeSort

/-! ## Replies -/

/-- The lines of components that a reply shows. -/
def Reply.summaries : Reply → List Summary
  | .listing answer => answer.components
  | .search answer => answer.results
  | .detail _ => []
  | .examples _ => []

theorem SearchResult.results_subset (corpus : Corpus) (piece : Text)
    (limit : Option Nat) :
    (SearchResult.ofCorpus corpus piece limit).results ⊆
      Query.summaries (corpus.components.filter (isMatch piece)) := by
  cases limit with
  | none => exact List.Subset.refl _
  | some count => exact List.take_subset _ _

/-- A line that is shown is the line of a component. -/
theorem exists_of_mem_madeReply {corpus : Corpus} {store : Store} {disk : Disk}
    {question : Question} {summary : Summary}
    (shown : summary ∈ (question.madeReply corpus store disk).summaries) :
    ∃ component ∈ corpus.components,
      Summary.ofComponent component = summary := by
  cases question with
  | list =>
      exact mem_summaries.mp shown
  | search request =>
      obtain ⟨component, member, rfl⟩ :=
        mem_summaries.mp (SearchResult.results_subset _ _ _ shown)
      exact ⟨component, (List.mem_filter.mp member).1, rfl⟩
  | get tag =>
      simp [Question.madeReply, Question.makeReply, Reply.summaries] at shown
  | examples tag =>
      simp [Question.madeReply, Question.makeReply, Reply.summaries] at shown

theorem madeReply_get_of_find? {corpus : Corpus} {text : Text}
    {component : Component}
    (found : corpus.find? (Text.trim text) = some component) (store : Store)
    (disk : Disk) :
    ∃ typeDefinition,
      (Question.get text).madeReply corpus store disk =
        .detail (.ok ⟨component, typeDefinition⟩) := by
  refine ⟨((Service.definitionOf store (Text.trim text)).run disk).1, ?_⟩
  simp only [Question.madeReply, Question.makeReply, Service.makeDetail, found,
    FileTask.run_bind, FileTask.run_pure]

theorem madeReply_get_of_not_find? {corpus : Corpus} {text : Text}
    (absent : corpus.find? (Text.trim text) = none) (store : Store)
    (disk : Disk) :
    (Question.get text).madeReply corpus store disk =
      .detail (.error (noComponent corpus (Text.trim text))) := by
  simp only [Question.madeReply, Question.makeReply, Service.makeDetail, absent,
    FileTask.run_bind, FileTask.run_pure]

/-! ## Sessions -/

/-- Every reply of a session is one made anew with the files of some time. -/
theorem exists_reply_eq_madeReply {corpus : Corpus} {store : Store}
    {source : ReleaseSource} {disk : Disk} {events : List Event}
    {exchange : Exchange}
    (recorded :
      exchange ∈ (Session.start corpus store source disk).run events) :
    ∃ files, exchange.reply =
      exchange.question.madeReply exchange.service.corpus
        exchange.service.store files := by
  obtain ⟨past, future, split⟩ := List.append_of_mem recorded
  have sound := Session.start_isSound corpus store source disk
  obtain ⟨earlier, -, -, -, -, reply⟩ := sound.run events split
  exact ⟨earlier.disk, reply.trans (Service.freshReply_eq _ _ _)⟩

/-- While a session serves a corpus that has been built, a tag that is shown
leads to the component of its line. A text leads to a component exactly when it
is a tag of the listing once blanks around it are dropped, and else to the tags
of the listing, which are ascending. -/
theorem shown_isFetched {options : ParseOptions} {root : Text}
    {release : ReleaseSource} {now : Instant} {docs : Disk} {built : Corpus}
    {report : Build.Report}
    (outcome : ((Build.corpus options root release now).run docs).1 =
      .ok (built, report))
    {corpus : Corpus} {store : Store} {source : ReleaseSource} {disk : Disk}
    {events : List Event} {shown asked : Exchange}
    (isShown : shown ∈ (Session.start corpus store source disk).run events)
    (isAsked : asked ∈ (Session.start corpus store source disk).run events)
    (shownServes : shown.service.corpus = built)
    (askedServes : asked.service.corpus = built)
    {text : Text} (gets : asked.question = .get text) :
    (∀ summary ∈ shown.reply.summaries, text = summary.tag →
        ∃ detail, asked.reply = .detail (.ok detail) ∧
          Summary.ofComponent detail.component = summary) ∧
      (shown.question = .list →
        let tags := shown.reply.summaries.map Summary.tag
        tags.Pairwise (· < ·) ∧
          (Text.trim text ∈ tags →
            ∃ detail, asked.reply = .detail (.ok detail)) ∧
          (Text.trim text ∉ tags →
            asked.reply = .detail (.error (.notFound (
              "component '".toList ++ Text.trim text ++
                "' not found; available: ".toList ++
                Text.join ", ".toList tags))))) := by
  have keyed := Build.isKeyed_of_corpus_run outcome
  obtain ⟨shownFiles, shownReply⟩ := exists_reply_eq_madeReply isShown
  obtain ⟨askedFiles, askedReply⟩ := exists_reply_eq_madeReply isAsked
  rw [shownServes] at shownReply
  rw [askedServes, gets] at askedReply
  constructor
  · rintro summary member rfl
    rw [shownReply] at member
    obtain ⟨component, isComponent, rfl⟩ := exists_of_mem_madeReply member
    have found : built.find? (Text.trim component.tag) = some component := by
      rw [keyed.trim_tag component isComponent]
      exact (Corpus.find?_eq_some_iff keyed.nodup_tags).mpr ⟨isComponent, rfl⟩
    obtain ⟨typeDefinition, made⟩ :=
      madeReply_get_of_find? found asked.service.store askedFiles
    exact ⟨_, askedReply.trans made, rfl⟩
  · intro lists tags
    have isTags : tags = built.tags := by
      rw [lists] at shownReply
      simp only [tags, shownReply]
      exact map_tag_listing built
    rw [isTags]
    refine ⟨ascending_tags keyed.nodup_tags, fun isTag => ?_, fun noTag => ?_⟩
    · cases found : built.find? (Text.trim text) with
      | none =>
          exact absurd (mem_tags.mp isTag) (Corpus.find?_eq_none_iff.mp found)
      | some component =>
          obtain ⟨typeDefinition, made⟩ :=
            madeReply_get_of_find? found asked.service.store askedFiles
          exact ⟨_, askedReply.trans made⟩
    · have absent : built.find? (Text.trim text) = none :=
        Corpus.find?_eq_none_iff.mpr fun isTag => noTag (mem_tags.mpr isTag)
      exact askedReply.trans (madeReply_get_of_not_find? absent _ _)

/-- A configured start of tags with blanks, of which one stays inside the tag,
and a type definition that is no text and is left out. -/
theorem paddedTag_isFetched :
    let options : ParseOptions :=
      { ParseOptions.default with componentPrefix := " my -".toList }
    let docs : Disk :=
      ⟨.directory [("docs".toList, .directory [("button.md".toList,
        .file (.text "---\ntitle: Button\n---\n".toList))])], []⟩
    let now : Instant := ⟨2024, 5, 1, 0, 0, 0, 0⟩
    let tag := "my -button".toList
    let built : Corpus := ⟨['1'], now, [Component.ofTag tag]⟩
    let files : Disk :=
      ⟨.directory [("types".toList,
        .directory [("my_-button.ts".toList, .file .binary)])], []⟩
    let session := Session.start built ⟨[]⟩ (.fixed ['1']) files
    let shown := session.exchange .list
    let asked := (session.afterCall .list).exchange (.get tag)
    ((Build.corpus options "docs".toList (.fixed ['1']) now).run docs).1 =
        .ok (built, ⟨1, 0, 0⟩) ∧
      session.run [.ask .list, .ask (.get tag)] = [shown, asked] ∧
      shown.service.corpus = built ∧ asked.service.corpus = built ∧
      (⟨tag, none, none⟩ : Summary) ∈ shown.reply.summaries ∧
      ∃ detail, asked.reply = .detail (.ok detail) ∧
        Summary.ofComponent detail.component = ⟨tag, none, none⟩ := by
  intro options docs now tag built files session shown asked
  have outcome :
      ((Build.corpus options "docs".toList (.fixed ['1']) now).run docs).1 =
        .ok (built, ⟨1, 0, 0⟩) := by
    decide +kernel
  have recorded :
      session.run [.ask .list, .ask (.get tag)] = [shown, asked] := by
    simp only [Session.run, shown, asked]
  have member : (⟨tag, none, none⟩ : Summary) ∈ shown.reply.summaries := by
    decide +kernel
  have isShown : shown ∈ session.run [.ask .list, .ask (.get tag)] := by
    rw [recorded]
    exact List.mem_cons_self
  have isAsked : asked ∈ session.run [.ask .list, .ask (.get tag)] := by
    rw [recorded]
    exact List.mem_cons_of_mem _ List.mem_cons_self
  have fetched := shown_isFetched outcome isShown isAsked rfl rfl rfl
  exact ⟨outcome, recorded, rfl, rfl, member, fetched.1 _ member rfl⟩

end Query

end ComponentDocs
