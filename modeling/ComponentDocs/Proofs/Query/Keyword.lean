import ComponentDocs.Proofs.Query.Search
import ComponentDocs.Proofs.Text.Lowercase

/-!
Whether a search finds what contains the keyword exactly as it is written. It
does so for every keyword of which no capital sigma depends on its neighbours;
any other keyword misses a component that has it in its tag.

Keyword and text are put into lower case each by itself, and the form of a
capital sigma that ends a word is another one inside a longer word.
-/

namespace ComponentDocs.Query

open Files (Disk)

/-- The tag or the description of a component has a text in it, exactly as it is
written. -/
def Writes (text : Text) (component : Component) : Prop :=
  text <:+: component.tag ∨
    ∃ description, component.description = some description ∧
      text <:+: description

/-- In every session the results of an unlimited search have the line of every
component that contains the keyword, without the blanks around it, exactly as it
is written. -/
def FindsWritten (keyword : Text) : Prop :=
  ∀ (corpus : Corpus) (store : Store) (source : ReleaseSource) (disk : Disk)
    (events : List Event),
    ∀ exchange ∈ (Session.start corpus store source disk).run events,
      exchange.question = .search ⟨keyword, none⟩ →
        ∃ result, exchange.reply = .search result ∧
          ∀ component ∈ exchange.service.corpus.components,
            Writes (Text.trim keyword) component →
              Summary.ofComponent component ∈ result.results

/-! ## Results -/

/-- The unlimited results are the lines of components that mention the piece. -/
theorem mem_results_iff {corpus : Corpus} {piece : Text} {summary : Summary} :
    summary ∈ (SearchResult.ofCorpus corpus piece none).results ↔
      summary.Mentions piece ∧
        ∃ component ∈ corpus.components,
          Summary.ofComponent component = summary := by
  change summary ∈ summaries (corpus.components.filter (isMatch piece)) ↔ _
  rw [summaries_filter_isMatch, List.mem_filter, mem_summaries,
    decide_eq_true_eq, and_comm]

theorem reply_of_search {corpus : Corpus} {store : Store}
    {source : ReleaseSource} {disk : Disk} {events : List Event}
    {exchange : Exchange} {request : SearchRequest}
    (recorded :
      exchange ∈ (Session.start corpus store source disk).run events)
    (searches : exchange.question = .search request) :
    exchange.reply =
      .search (SearchResult.ofCorpus exchange.service.corpus
        (needle request.keyword) request.limit) := by
  obtain ⟨files, reply⟩ := exists_reply_eq_madeReply recorded
  rw [reply, searches]
  rfl

/-! ## Keywords -/

/-- A steady keyword is mentioned, in lower case, wherever it is written. -/
theorem mentions_of_writes {keyword : Text} {component : Component}
    (steady : Text.HasSteadySigmas (Text.trim keyword))
    (written : Writes (Text.trim keyword) component) :
    (Summary.ofComponent component).Mentions (needle keyword) := by
  rcases written with inTag | ⟨description, isPresent, inDescription⟩
  · exact .inl (Text.lowercase_isInfix steady inTag)
  · exact .inr ⟨description, isPresent,
      Text.lowercase_isInfix steady inDescription⟩

/-- What a keyword finds by its tag it has in lower case. -/
theorem lowercase_isInfix_of_findsWritten {keyword text : Text}
    (finds : FindsWritten keyword) (inside : Text.trim keyword <:+: text) :
    needle keyword <:+: Text.lowercase text := by
  have recorded :
      (Session.start ⟨[], ⟨2024, 5, 1, 0, 0, 0, 0⟩, [.ofTag text]⟩ ⟨[]⟩
          (.fixed []) ⟨.directory [], []⟩).exchange
            (.search ⟨keyword, none⟩) ∈
        (Session.start ⟨[], ⟨2024, 5, 1, 0, 0, 0, 0⟩, [.ofTag text]⟩ ⟨[]⟩
          (.fixed []) ⟨.directory [], []⟩).run
            [.ask (.search ⟨keyword, none⟩)] :=
    List.mem_cons_self
  obtain ⟨result, reply, finds⟩ := finds _ _ _ _ _ _ recorded rfl
  have found := finds (.ofTag text) List.mem_cons_self (.inl inside)
  rw [reply_of_search recorded rfl] at reply
  cases reply
  rcases (mem_results_iff.mp found).1 with inTag | ⟨description, isPresent, -⟩
  · exact inTag
  · cases isPresent

/-- A keyword finds all that contains it exactly as it is written if and only if
no capital sigma of it depends on what stands around the keyword. A keyword
without capital sigma is one of these. -/
theorem findsWritten_iff (keyword : Text) :
    (FindsWritten keyword ↔ Text.HasSteadySigmas (Text.trim keyword)) ∧
      ('Σ' ∉ Text.trim keyword →
        Text.HasSteadySigmas (Text.trim keyword)) := by
  refine ⟨⟨fun finds => ?_, ?_⟩, Text.hasSteadySigmas_of_not_mem⟩
  · exact Text.forall_lowercase_isInfix_iff.mp fun text inside =>
      lowercase_isInfix_of_findsWritten finds inside
  · intro steady corpus store source disk events exchange recorded searches
    refine ⟨_, reply_of_search recorded searches, ?_⟩
    intro component member written
    exact mem_results_iff.mpr
      ⟨mentions_of_writes steady written, component, member, rfl⟩

/-- A component with one Greek word as its description. -/
def signComponent : Component :=
  { Component.ofTag "y-sign".toList with
    description := some "ΟΔΟΣΗΜΑ".toList }

/-- The sigma at the end of a keyword stands inside the word that contains
it. -/
theorem street_misses_sign :
    let corpus : Corpus :=
      ⟨['1'], ⟨2024, 5, 1, 0, 0, 0, 0⟩, [signComponent]⟩
    let session :=
      Session.start corpus ⟨['d']⟩ (.fixed ['1']) ⟨.directory [], []⟩
    let keyword := "ΟΔΟΣ".toList
    Writes (Text.trim keyword) signComponent ∧
      (session.exchange (.search ⟨keyword, none⟩)).reply =
        .search ⟨"οδος".toList, 0, []⟩ ∧
      ¬ FindsWritten keyword := by
  intro corpus session keyword
  have written : Writes (Text.trim keyword) signComponent :=
    .inr ⟨"ΟΔΟΣΗΜΑ".toList, rfl, by decide +kernel⟩
  have recorded :
      session.exchange (.search ⟨keyword, none⟩) ∈
        session.run [.ask (.search ⟨keyword, none⟩)] :=
    List.mem_cons_self
  have noMatch :
      corpus.components.filter (isMatch (needle keyword)) = [] := by
    decide +kernel
  have reply :
      (session.exchange (.search ⟨keyword, none⟩)).reply =
        .search ⟨"οδος".toList, 0, []⟩ := by
    rw [reply_of_search recorded rfl]
    change Reply.search (SearchResult.ofCorpus corpus (needle keyword) none) = _
    rw [SearchResult.ofCorpus, noMatch, summaries, List.map_nil,
      List.mergeSort_nil]
    decide +kernel
  refine ⟨written, reply, fun finds => ?_⟩
  obtain ⟨result, found, contains⟩ := finds _ _ _ _ _ _ recorded rfl
  rw [reply] at found
  cases found
  cases contains signComponent List.mem_cons_self written

end ComponentDocs.Query
