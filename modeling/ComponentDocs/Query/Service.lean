import ComponentDocs.Query.Answer
import ComponentDocs.Release.Cache
import ComponentDocs.Release.Source
import ComponentDocs.Store.Basic

/-!
Questions answered over one corpus, with a cache of the answers of one release.

An answer is stored under a key that names the question. Failures are not
stored. The files of a tag are read when its answer is made.
-/

namespace ComponentDocs.Query

/-- An answer of any question. -/
inductive Answer
  | listing (answer : Listing)
  | search (answer : SearchResult)
  | detail (answer : Detail)
  | examples (answer : Examples)
deriving DecidableEq, Repr

namespace Answer

def listing? : Answer → Option Listing
  | listing answer => some answer
  | _ => none

def search? : Answer → Option SearchResult
  | search answer => some answer
  | _ => none

def detail? : Answer → Option Detail
  | detail answer => some answer
  | _ => none

def examples? : Answer → Option Examples
  | examples answer => some answer
  | _ => none

end Answer

/-- A corpus that is served, the data directory beside it, the source of
versions and the cache. -/
structure Service where
  corpus : Corpus
  store : Store
  source : ReleaseSource
  cache : ReleaseCache Text Answer

namespace Service

def start (corpus : Corpus) (store : Store) (source : ReleaseSource) :
    Service :=
  ⟨corpus, store, source, .empty⟩

/-- Serve another corpus; all answers are dropped. -/
def swap (service : Service) (corpus : Corpus) : Service :=
  { service with corpus := corpus, cache := service.cache.clear }

/-! ## Keys -/

def listingKey : Text := "list".toList

def limitText : Option Nat → Text
  | some limit => Text.ofNat limit
  | none => "all".toList

def searchKey (piece : Text) (limit : Option Nat) : Text :=
  "search:".toList ++ piece ++ [':'] ++ limitText limit

def detailKey (tag : Text) : Text :=
  "get:".toList ++ tag

def examplesKey (tag : Text) : Text :=
  "examples:".toList ++ tag

/-! ## Answers -/

variable {ε α : Type}

/-- Answer from the cache, or make an answer and store it unless it has
failed. -/
def answer (service : Service) (key : Text) (fromCache : Answer → Option α)
    (toCache : α → Answer) (make : FileTask (Except ε α)) :
    FileTask (Except ε α × Service) := do
  let current ← service.source.current
  let (stored, cache) := service.cache.get current key
  match stored.bind fromCache with
  | some found => return (.ok found, { service with cache })
  | none =>
      match ← make with
      | .error failure => return (.error failure, { service with cache })
      | .ok made =>
          return (.ok made,
            { service with cache := cache.set current key (toCache made) })

def certain : Except Empty α → α
  | .ok value => value

def answerAlways (service : Service) (key : Text)
    (fromCache : Answer → Option α) (toCache : α → Answer)
    (make : FileTask α) : FileTask (α × Service) := do
  let sure : FileTask (Except Empty α) := do return .ok (← make)
  let (outcome, after) ← service.answer key fromCache toCache sure
  return (certain outcome, after)

def list (service : Service) : FileTask (Listing × Service) :=
  service.answerAlways listingKey Answer.listing? .listing
    (return Listing.ofCorpus service.corpus)

/-- The components whose tag or description mentions a keyword. -/
def search (service : Service) (request : SearchRequest) :
    FileTask (SearchResult × Service) :=
  let piece := needle request.keyword
  service.answerAlways (searchKey piece request.limit) Answer.search? .search
    (return SearchResult.ofCorpus service.corpus piece request.limit)

/-- The type definition of a tag; one that cannot be read is left out. -/
def definitionOf (store : Store) (tag : Text) : FileTask (Option Text) := do
  match ← store.typeDefinition tag with
  | .ok content => return content
  | .error _ => return none

def makeDetail (corpus : Corpus) (store : Store) (tag : Text) :
    FileTask (Except Failure Detail) :=
  match corpus.find? tag with
  | none => return .error (noComponent corpus tag)
  | some component => do
      return .ok ⟨component, ← definitionOf store tag⟩

/-- All that is known of the component with a tag. -/
def get (service : Service) (tag : Text) :
    FileTask (Except Failure Detail × Service) :=
  let trimmed := Text.trim tag
  service.answer (detailKey trimmed) Answer.detail? .detail
    (makeDetail service.corpus service.store trimmed)

/-- Make the examples of a tag; those that cannot be read are as good as
absent. -/
def makeExamples (store : Store) (tag : Text) : FileTask Examples := do
  match ← store.examples tag with
  | .ok content => return Examples.ofContent tag content
  | .error _ => return Examples.placeholder tag

def examples (service : Service) (tag : Text) :
    FileTask (Examples × Service) :=
  let trimmed := Text.trim tag
  service.answerAlways (examplesKey trimmed) Answer.examples? .examples
    (makeExamples service.store trimmed)

end Service

end ComponentDocs.Query
