import ComponentDocs.Editor.WebTypes
import ComponentDocs.Proofs.Query.Fetch

/-!
The order of the components in a corpus cannot be seen: two sessions over
corpora that differ only in it give the same replies, call by call, and the
documents for editors are the same.

Listings, searches and documents are sorted by tags, which are distinct, and a
tag leads to the one component that has it.
-/

namespace ComponentDocs

open Editor (Element WebTypes)
open Files (Disk)

/-- Two corpora of one version with the same components, of distinct tags, in
any two orders. -/
structure Corpus.IsReordering (first second : Corpus) : Prop where
  version_eq : first.version = second.version
  perm : first.components.Perm second.components
  nodup_tags : (first.components.map Component.tag).Nodup

namespace Corpus.IsReordering

variable {first second : Corpus}

/-! ## Corpora -/

theorem find?_eq (reordered : first.IsReordering second) (tag : Text) :
    first.find? tag = second.find? tag := by
  have secondDistinct : (second.components.map Component.tag).Nodup :=
    (reordered.perm.map Component.tag).nodup_iff.mp reordered.nodup_tags
  apply Option.ext
  intro component
  rw [find?_eq_some_iff reordered.nodup_tags, find?_eq_some_iff secondDistinct,
    reordered.perm.mem_iff]

theorem tags_eq (reordered : first.IsReordering second) :
    first.tags = second.tags :=
  Text.mergeSort_eq_of_perm id (reordered.perm.map Component.tag)
    (by simpa using reordered.nodup_tags)

/-- The lines of those components that pass a test. -/
theorem summaries_filter_eq (reordered : first.IsReordering second)
    (test : Component → Bool) :
    Query.summaries (first.components.filter test) =
      Query.summaries (second.components.filter test) := by
  refine Text.mergeSort_eq_of_perm Query.Summary.tag
    ((reordered.perm.filter test).map _) ?_
  rw [List.map_map]
  exact reordered.nodup_tags.sublist (List.filter_sublist.map _)

theorem listing_eq (reordered : first.IsReordering second) :
    Query.Listing.ofCorpus first = Query.Listing.ofCorpus second := by
  have lines := reordered.summaries_filter_eq fun _ => true
  rw [List.filter_true, List.filter_true] at lines
  rw [Query.Listing.ofCorpus, Query.Listing.ofCorpus, lines,
    reordered.perm.length_eq]

theorem searchResult_eq (reordered : first.IsReordering second) (piece : Text)
    (limit : Option Nat) :
    Query.SearchResult.ofCorpus first piece limit =
      Query.SearchResult.ofCorpus second piece limit := by
  unfold Query.SearchResult.ofCorpus
  rw [reordered.summaries_filter_eq]

theorem makeDetail_eq (reordered : first.IsReordering second) (store : Store)
    (tag : Text) :
    Query.Service.makeDetail first store tag =
      Query.Service.makeDetail second store tag := by
  simp only [Query.Service.makeDetail, Query.noComponent, reordered.find?_eq,
    reordered.tags_eq]

theorem webTypes_eq (reordered : first.IsReordering second) (library : Text) :
    WebTypes.ofCorpus first library = WebTypes.ofCorpus second library := by
  have sameElements : WebTypes.elements first = WebTypes.elements second := by
    refine Text.mergeSort_eq_of_perm Element.name (reordered.perm.map _) ?_
    rw [List.map_map]
    exact reordered.nodup_tags
  rw [WebTypes.ofCorpus, WebTypes.ofCorpus, sameElements, reordered.version_eq]

end Corpus.IsReordering

namespace Query

/-! ## Services -/

namespace Service

variable {ε α : Type}

/-- Answering looks at the corpus of the service only to hand it on. -/
theorem answer_run_withCorpus (service : Service) (corpus : Corpus)
    (key : Text) (fromCache : Answer → Option α) (toCache : α → Answer)
    (make : FileTask (Except ε α)) (disk : Disk) :
    (({ service with corpus } : Service).answer key fromCache toCache make).run
        disk =
      let result := (service.answer key fromCache toCache make).run disk
      ((result.1.1, { result.1.2 with corpus }), result.2) := by
  unfold answer
  rw [FileTask.run_bind, FileTask.run_bind]
  dsimp only
  split
  · rfl
  · rw [FileTask.run_bind, FileTask.run_bind]
    cases (make.run (service.source.current.run disk).2).1 <;> rfl

theorem answerAlways_run_withCorpus (service : Service) (corpus : Corpus)
    (key : Text) (fromCache : Answer → Option α) (toCache : α → Answer)
    (make : FileTask α) (disk : Disk) :
    (({ service with corpus } : Service).answerAlways key fromCache toCache
        make).run disk =
      let result := (service.answerAlways key fromCache toCache make).run disk
      ((result.1.1, { result.1.2 with corpus }), result.2) := by
  unfold answerAlways
  rw [FileTask.run_bind, FileTask.run_bind, answer_run_withCorpus]
  rfl

/-- A call over a reordered corpus gives the same reply and leaves the same
answers in the cache. -/
theorem ask_run_withCorpus (service : Service) {corpus : Corpus}
    (reordered : service.corpus.IsReordering corpus) (question : Question)
    (disk : Disk) :
    (({ service with corpus } : Service).ask question).run disk =
      let result := (service.ask question).run disk
      ((result.1.1, { result.1.2 with corpus }), result.2) := by
  cases question with
  | list =>
      unfold ask list
      dsimp only
      rw [← reordered.listing_eq, FileTask.run_bind, FileTask.run_bind,
        answerAlways_run_withCorpus]
      rfl
  | search request =>
      unfold ask search
      dsimp only
      rw [← reordered.searchResult_eq, FileTask.run_bind, FileTask.run_bind,
        answerAlways_run_withCorpus]
      rfl
  | get tag =>
      unfold ask get
      dsimp only
      rw [← reordered.makeDetail_eq, FileTask.run_bind, FileTask.run_bind,
        answer_run_withCorpus]
      rfl
  | examples tag =>
      unfold ask examples
      dsimp only
      rw [FileTask.run_bind, FileTask.run_bind, answerAlways_run_withCorpus]
      rfl

end Service

/-! ## Sessions -/

/-- The same event, but for the order of the corpus in a swap. -/
inductive Event.IsReordering : Event → Event → Prop
  | ask (question : Question) : IsReordering (.ask question) (.ask question)
  | files (disk : Disk) : IsReordering (.files disk) (.files disk)
  | release (source : ReleaseSource) :
      IsReordering (.release source) (.release source)
  | swap {first second : Corpus} : first.IsReordering second →
      IsReordering (.swap first) (.swap second)

namespace Session

/-- A session with another corpus in place of the one that it serves. -/
def withCorpus (session : Session) (corpus : Corpus) : Session :=
  { session with service := { session.service with corpus } }

variable {session : Session} {corpus : Corpus}

theorem reply_withCorpus
    (reordered : session.service.corpus.IsReordering corpus)
    (question : Question) :
    ((session.withCorpus corpus).exchange question).reply =
      (session.exchange question).reply :=
  congrArg (fun result => result.1.1)
    (session.service.ask_run_withCorpus reordered question session.disk)

theorem afterCall_withCorpus
    (reordered : session.service.corpus.IsReordering corpus)
    (question : Question) :
    (session.withCorpus corpus).afterCall question =
      (session.afterCall question).withCorpus corpus := by
  have call :=
    session.service.ask_run_withCorpus reordered question session.disk
  simp only [afterCall, withCorpus, call]

/-- Over reordered corpora the events of a session give the same replies. -/
theorem replies_withCorpus
    (reordered : session.service.corpus.IsReordering corpus)
    {events others : List Event}
    (related : List.Forall₂ Event.IsReordering events others) :
    ((session.withCorpus corpus).run others).map Exchange.reply =
      (session.run events).map Exchange.reply := by
  -- The two sessions differ in nothing but the corpus, which is kept by every
  -- event; a swap puts two new ones in its place.
  induction related generalizing session corpus with
  | nil =>
      rfl
  | cons related _ inductionHypothesis =>
      cases related with
      | ask question =>
          have still :
              (session.afterCall question).service.corpus.IsReordering
                corpus := by
            rwa [afterCall_corpus]
          simp only [run, List.map_cons, reply_withCorpus reordered,
            afterCall_withCorpus reordered, inductionHypothesis still]
      | files disk =>
          have still :
              ({ session with disk } : Session).service.corpus.IsReordering
                corpus :=
            reordered
          exact inductionHypothesis still
      | release source =>
          have still :
              ({ session with service :=
                { session.service with source } } : Session).service.corpus
                  |>.IsReordering corpus :=
            reordered
          exact inductionHypothesis still
      | @swap first second swapped =>
          have still :
              ({ session with
                service := session.service.swap first
                swaps := session.swaps + 1 } : Session).service.corpus
                  |>.IsReordering second :=
            swapped
          exact inductionHypothesis still

end Session

/-! ## Replies cannot tell the order -/

/-- Corpora that differ only in the order of their components are served alike:
sessions with the same events, up to the order of the corpora that are swapped
in, give the same replies one by one, failures included, and the documents for
editors are the same. -/
theorem served_alike {first second : Corpus}
    (reordered : first.IsReordering second) :
    (∀ store source disk events others,
        List.Forall₂ Event.IsReordering events others →
        ((Session.start first store source disk).run events).map
            Exchange.reply =
          ((Session.start second store source disk).run others).map
            Exchange.reply) ∧
      ∀ library,
        WebTypes.ofCorpus first library = WebTypes.ofCorpus second library := by
  constructor
  · intro store source disk events others related
    have startReordered :
        (Session.start first store source disk).service.corpus.IsReordering
          second :=
      reordered
    exact (Session.replies_withCorpus startReordered related).symm
  · exact reordered.webTypes_eq

/-- Two components in both orders: a look-up of the one that is first in only
one of them, a listing, and a look-up that finds none and names both tags. -/
theorem twoComponents_served_alike :
    let component (name : Char) : Component :=
      { Component.ofTag [name] with description := some ['x'] }
    let first : Corpus :=
      ⟨['1'], ⟨2024, 5, 1, 0, 0, 0, 0⟩, [component 'a', component 'b']⟩
    let second : Corpus :=
      ⟨['1'], ⟨2025, 6, 2, 0, 0, 0, 0⟩, [component 'b', component 'a']⟩
    let events : List Event :=
      [.ask (.get ['b']), .ask .list, .ask (.get ['c'])]
    let replies (corpus : Corpus) : List Reply :=
      ((Session.start corpus ⟨['d']⟩ (.fixed ['1']) ⟨.directory [], []⟩).run
        events).map Exchange.reply
    first.IsReordering second ∧ replies second = replies first ∧
      (replies first).head? = some (.detail (.ok ⟨component 'b', none⟩)) := by
  intro component first second events replies
  have reordered : first.IsReordering second :=
    ⟨rfl, List.Perm.swap _ _ [], by decide⟩
  have sameEvents : List.Forall₂ Event.IsReordering events events := by
    simp only [events, List.forall₂_cons, List.Forall₂.nil, and_true]
    exact ⟨.ask _, .ask _, .ask _⟩
  have alike : replies first = replies second :=
    (served_alike reordered).1 ⟨['d']⟩ (.fixed ['1']) ⟨.directory [], []⟩ events
      events sameEvents
  exact ⟨reordered, alike.symm, rfl⟩

end Query

end ComponentDocs
