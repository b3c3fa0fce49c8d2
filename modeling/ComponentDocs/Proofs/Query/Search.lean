import ComponentDocs.Proofs.Query.Fetch
import ComponentDocs.Proofs.Text.Pieces

/-!
A search filters the listing: in every session the results are those lines of
the listing that mention the keyword, in the order in which they are listed,
cut off at the limit.

Matching is decided on components before they are sorted. It sees nothing but
their lines, and filtering commutes with a stable sort.
-/

namespace ComponentDocs.Query

open Files (Disk)

/-! ## What a search is about -/

/-- The tag or the description of a line has a piece in it, in lower case. -/
def Summary.Mentions (piece : Text) (summary : Summary) : Prop :=
  piece <:+: Text.lowercase summary.tag ∨
    ∃ description, summary.description = some description ∧
      piece <:+: Text.lowercase description

theorem mentions_iff {piece text : Text} :
    mentions piece text = true ↔ piece <:+: Text.lowercase text :=
  Text.hasPiece_iff_isInfix

theorem isMatch_iff {piece : Text} {component : Component} :
    isMatch piece component = true ↔
      (Summary.ofComponent component).Mentions piece := by
  rw [isMatch, Bool.or_eq_true, mentions_iff, Option.any_eq_true]
  simp only [mentions_iff, Summary.Mentions, Summary.ofComponent]

instance (piece : Text) (summary : Summary) :
    Decidable (summary.Mentions piece) :=
  decidable_of_iff
    ((mentions piece summary.tag ||
      summary.description.any (mentions piece)) = true) (by
    rw [Bool.or_eq_true, mentions_iff, Option.any_eq_true]
    simp only [mentions_iff, Summary.Mentions])

/-- A line that mentions a piece mentions what is in that piece. -/
theorem Summary.Mentions.of_isInfix {shorter longer : Text} {summary : Summary}
    (mentioned : summary.Mentions longer) (inside : shorter <:+: longer) :
    summary.Mentions shorter := by
  rcases mentioned with inTag | ⟨description, isPresent, inDescription⟩
  · exact .inl (inside.trans inTag)
  · exact .inr ⟨description, isPresent, inside.trans inDescription⟩

/-- The lines of a listing that mention a keyword. -/
def Listing.matching (listing : Listing) (keyword : Text) : List Summary :=
  listing.components.filter fun summary => summary.Mentions (needle keyword)

/-- The listing of a corpus: a line for each component, ascending by tag, and
those of one tag as they stand in the corpus. -/
structure Listing.Lists (listing : Listing) (corpus : Corpus) : Prop where
  total : listing.total = corpus.components.length
  lines : listing.components.Perm
    (corpus.components.map Summary.ofComponent)
  ascending : listing.components.Pairwise
    fun left right => left.tag ≤ right.tag
  sameTag : ∀ tag,
    listing.components.filter (fun summary => summary.tag == tag) =
      (corpus.components.map Summary.ofComponent).filter
        fun summary => summary.tag == tag

/-- The result of a request: the lines of a listing that mention the keyword
are counted, and the first of them are given. -/
structure SearchResult.IsCutFrom (result : SearchResult) (listing : Listing)
    (request : SearchRequest) : Prop where
  keyword : result.keyword = needle request.keyword
  total : result.total = (listing.matching request.keyword).length
  unlimited : request.limit = none →
    result.results = listing.matching request.keyword
  limited : ∀ limit, request.limit = some limit →
    result.results =
      (listing.matching request.keyword).take (min limit result.total)

/-! ## Filtering and sorting -/

theorem summaries_filter_isMatch (piece : Text)
    (components : List Component) :
    summaries (components.filter (isMatch piece)) =
      (summaries components).filter fun summary =>
        summary.Mentions piece := by
  have sameTest :
      isMatch piece =
        (fun summary : Summary => decide (summary.Mentions piece)) ∘
          Summary.ofComponent := by
    funext component
    rw [Bool.eq_iff_iff, isMatch_iff, Function.comp_apply, decide_eq_true_eq]
  rw [summaries, summaries, Text.filter_mergeSort Summary.tag, sameTest,
    List.filter_map]

theorem lists_ofCorpus (corpus : Corpus) :
    (Listing.ofCorpus corpus).Lists corpus where
  total := rfl
  lines := List.mergeSort_perm _ _
  ascending := Text.pairwise_mergeSort Summary.tag _
  sameTag := fun tag => Text.filter_key_mergeSort Summary.tag tag _

theorem isCutFrom_ofCorpus (corpus : Corpus) (request : SearchRequest) :
    (SearchResult.ofCorpus corpus (needle request.keyword)
      request.limit).IsCutFrom (Listing.ofCorpus corpus) request where
  keyword := rfl
  total := congrArg List.length (summaries_filter_isMatch _ _)
  unlimited := by
    intro noLimit
    simp only [SearchResult.ofCorpus, noLimit]
    exact summaries_filter_isMatch _ _
  limited := by
    intro limit isLimit
    simp only [SearchResult.ofCorpus, isLimit]
    rw [summaries_filter_isMatch]
    exact List.take_eq_take_min

/-! ## Keywords -/

/-- A blank keyword is mentioned by every line. -/
theorem Listing.matching_of_blank (listing : Listing) {keyword : Text}
    (blank : Text.trim keyword = []) :
    listing.matching keyword = listing.components := by
  have noNeedle : needle keyword = [] := by
    rw [needle, blank]
    rfl
  rw [matching, List.filter_eq_self]
  intro summary _
  rw [decide_eq_true_eq, noNeedle]
  exact .inl List.nil_infix

/-- The longer a keyword, the fewer lines mention it. -/
theorem Listing.matching_sublist (listing : Listing) {shorter longer : Text}
    (inside : needle shorter <:+: needle longer) :
    (listing.matching longer).Sublist (listing.matching shorter) := by
  refine List.monotone_filter_right _ fun summary mentioned => ?_
  rw [decide_eq_true_eq] at mentioned ⊢
  exact mentioned.of_isInfix inside

/-! ## Sessions -/

/-- However often a corpus is swapped and answers are taken from the cache, all
that a session replies while it serves a corpus is drawn from one listing of
that corpus: a listing is this one, and a search gives the lines of it that
mention the keyword, up to the limit. A blank keyword is mentioned by all lines,
and the lines that mention a longer keyword are among those that mention a
shorter one, in the same order. -/
theorem search_filtersListing (corpus : Corpus) (store : Store)
    (source : ReleaseSource) (disk : Disk) (events : List Event)
    (served : Corpus) :
    ∃ listing : Listing,
      listing.Lists served ∧
        (∀ exchange ∈ (Session.start corpus store source disk).run events,
          exchange.service.corpus = served →
            (exchange.question = .list →
              exchange.reply = .listing listing) ∧
            ∀ request, exchange.question = .search request →
              ∃ result, exchange.reply = .search result ∧
                result.IsCutFrom listing request) ∧
        (∀ keyword, Text.trim keyword = [] →
          listing.matching keyword = listing.components) ∧
        ∀ shorter longer, needle shorter <:+: needle longer →
          (listing.matching longer).Sublist (listing.matching shorter) := by
  refine ⟨Listing.ofCorpus served, lists_ofCorpus served, ?_,
    fun keyword => Listing.matching_of_blank _,
    fun shorter longer => Listing.matching_sublist _⟩
  rintro exchange recorded rfl
  obtain ⟨files, reply⟩ := exists_reply_eq_madeReply recorded
  constructor
  · intro lists
    rw [reply, lists]
    rfl
  · intro request searches
    refine ⟨SearchResult.ofCorpus exchange.service.corpus
      (needle request.keyword) request.limit, ?_,
      isCutFrom_ofCorpus exchange.service.corpus request⟩
    rw [reply, searches]
    rfl

/-- Two components of one tag, of which the limit leaves the first, and a
keyword that is found in a description only. -/
theorem repeatedTag_filtersListing :
    let first : Component :=
      { Component.ofTag ['b'] with description := some "One Button".toList }
    let second : Component :=
      { Component.ofTag ['b'] with description := some "a BUTTON bar".toList }
    let third : Component := Component.ofTag ['a']
    let corpus : Corpus :=
      ⟨['1'], ⟨2024, 5, 1, 0, 0, 0, 0⟩, [first, third, second]⟩
    let session :=
      Session.start corpus ⟨['d']⟩ (.fixed ['1']) ⟨.directory [], []⟩
    let request : SearchRequest := ⟨" Button".toList, some 1⟩
    let listed := session.exchange .list
    let searched := (session.afterCall .list).exchange (.search request)
    listed.reply =
        .listing ⟨3, [third, first, second].map Summary.ofComponent⟩ ∧
      searched.reply =
        .search ⟨"button".toList, 2, [Summary.ofComponent first]⟩ ∧
      ∃ listing result,
        listing.Lists corpus ∧ listed.reply = .listing listing ∧
          searched.reply = .search result ∧
          result.IsCutFrom listing request := by
  intro first second third corpus session request listed searched
  have recorded :
      session.run [.ask .list, .ask (.search request)] =
        [listed, searched] := by
    simp only [Session.run, listed, searched]
  have sorted :
      summaries corpus.components =
        [third, first, second].map Summary.ofComponent := by
    rw [summaries]
    simp only [corpus, List.map_cons, List.map_nil,
      Text.mergeSort_cons Summary.tag, List.mergeSort_nil]
    decide +kernel
  have found :
      SearchResult.ofCorpus corpus (needle request.keyword) request.limit =
        ⟨"button".toList, 2, [Summary.ofComponent first]⟩ := by
    simp only [SearchResult.ofCorpus, summaries_filter_isMatch, sorted]
    decide +kernel
  refine ⟨congrArg (fun lines => Reply.listing ⟨3, lines⟩) sorted,
    congrArg Reply.search found, ?_⟩
  obtain ⟨listing, lists, drawn, -, -⟩ :=
    search_filtersListing corpus ⟨['d']⟩ (.fixed ['1']) ⟨.directory [], []⟩
      [.ask .list, .ask (.search request)] corpus
  have isListed : listed ∈ session.run [.ask .list, .ask (.search request)] := by
    rw [recorded]
    exact List.mem_cons_self
  have isSearched :
      searched ∈ session.run [.ask .list, .ask (.search request)] := by
    rw [recorded]
    exact List.mem_cons_of_mem _ List.mem_cons_self
  obtain ⟨result, reply, isCut⟩ :=
    (drawn searched isSearched rfl).2 request rfl
  exact ⟨listing, result, lists, (drawn listed isListed rfl).1 rfl, reply,
    isCut⟩

end ComponentDocs.Query
