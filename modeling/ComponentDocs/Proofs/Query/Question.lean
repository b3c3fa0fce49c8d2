import ComponentDocs.Proofs.Files.Task
import ComponentDocs.Query.Service
import Mathlib.Control.Monad.Basic

/-!
The questions to a service as values, and what one call does: it answers from
the cache, or it makes the answer and stores it.

A question is stored under its key, and the key tells the question: two
questions have one key only if they are the same operation on the same argument.
-/

namespace ComponentDocs.Query

open Files (Disk)

/-- A question to a service. -/
inductive Question
  | list
  | search (request : SearchRequest)
  | get (tag : Text)
  | examples (tag : Text)
deriving DecidableEq, Repr

/-- What a service replies to a question. -/
inductive Reply
  | listing (answer : Listing)
  | search (answer : SearchResult)
  | detail (outcome : Except Failure Detail)
  | examples (answer : Examples)
deriving DecidableEq

def Answer.reply : Answer → Reply
  | listing answer => .listing answer
  | search answer => .search answer
  | detail answer => .detail (.ok answer)
  | examples answer => .examples answer

namespace Question

/-- The key that an answer is stored under. -/
def key : Question → Text
  | list => Service.listingKey
  | search request => Service.searchKey (needle request.keyword) request.limit
  | get tag => Service.detailKey (Text.trim tag)
  | examples tag => Service.examplesKey (Text.trim tag)

/-- A question as it is understood: the keyword as it is matched, the tag
without outer blanks. -/
def understood : Question → Question
  | list => list
  | search request => search ⟨needle request.keyword, request.limit⟩
  | get tag => get (Text.trim tag)
  | examples tag => examples (Text.trim tag)

/-- Make the reply to a question anew. -/
def makeReply (corpus : Corpus) (store : Store) : Question → FileTask Reply
  | list => return .listing (Listing.ofCorpus corpus)
  | search request =>
      return .search <|
        SearchResult.ofCorpus corpus (needle request.keyword) request.limit
  | get tag =>
      return .detail (← Service.makeDetail corpus store (Text.trim tag))
  | examples tag =>
      return .examples (← Service.makeExamples store (Text.trim tag))

def madeReply (corpus : Corpus) (store : Store) (disk : Disk)
    (question : Question) : Reply :=
  ((question.makeReply corpus store).run disk).1

end Question

namespace Service

def ask (service : Service) : Question → FileTask (Reply × Service)
  | .list => do
      let (answer, after) ← service.list
      return (.listing answer, after)
  | .search request => do
      let (answer, after) ← service.search request
      return (.search answer, after)
  | .get tag => do
      let (outcome, after) ← service.get tag
      return (.detail outcome, after)
  | .examples tag => do
      let (answer, after) ← service.examples tag
      return (.examples answer, after)

/-- The reply of a service that has just been started over the corpus, the data
directory and the source of versions of this one. -/
def freshReply (service : Service) (disk : Disk) (question : Question) :
    Reply :=
  (((Service.start service.corpus service.store service.source).ask
    question).run disk).1.1

end Service

/-! ## Keys -/

theorem limitText_injective {first second : Option Nat}
    (same : Service.limitText first = Service.limitText second) :
    first = second := by
  have notAll : ∀ limit : Nat, Text.ofNat limit ≠ "all".toList := by
    intro limit equality
    have member : 'a' ∈ Nat.toDigits 10 limit := by
      have shown : Nat.toDigits 10 limit = "all".toList := equality
      rw [shown]
      decide
    have digit : 'a'.isDigit = true :=
      Nat.isDigit_of_mem_toDigits (by decide) (by decide) member
    exact absurd digit (by decide)
  cases first with
  | none =>
      cases second with
      | none => rfl
      | some limit => exact absurd same.symm (notAll limit)
  | some limit =>
      cases second with
      | none => exact absurd same (notAll limit)
      | some other =>
          have digits : Nat.toDigits 10 limit = Nat.toDigits 10 other := same
          have values := congrArg (Nat.ofDigitChars 10 · 0) digits
          simpa [Nat.ofDigitChars_ten_toDigits] using values

theorem colon_not_mem_limitText (limit : Option Nat) :
    ':' ∉ Service.limitText limit := by
  cases limit with
  | none =>
      decide
  | some limit =>
      intro member
      have digit : ':'.isDigit = true :=
        Nat.isDigit_of_mem_toDigits (by decide) (by decide) member
      exact absurd digit (by decide)

/-- Two texts that end in a colon and a rest without colons are equal only part
by part, whatever colons the first parts have. -/
theorem append_colon_injective {first second firstRest secondRest : Text}
    (firstFree : ':' ∉ firstRest) (secondFree : ':' ∉ secondRest)
    (same : first ++ ':' :: firstRest = second ++ ':' :: secondRest) :
    first = second ∧ firstRest = secondRest := by
  rcases List.append_eq_append_iff.mp same with
    ⟨middle, secondParts, firstParts⟩ | ⟨middle, firstParts, secondParts⟩
  · cases middle with
    | nil =>
        simp_all
    | cons head tail =>
        simp only [List.cons_append, List.cons.injEq] at firstParts
        exact absurd (by simp [firstParts.2]) firstFree
  · cases middle with
    | nil =>
        simp_all
    | cons head tail =>
        simp only [List.cons_append, List.cons.injEq] at secondParts
        exact absurd (by simp [secondParts.2]) secondFree

theorem searchKey_injective {first second : Text}
    {firstLimit secondLimit : Option Nat}
    (same : Service.searchKey first firstLimit =
      Service.searchKey second secondLimit) :
    first = second ∧ firstLimit = secondLimit := by
  unfold Service.searchKey at same
  generalize "search:".toList = start at same
  have parts :
      (start ++ first) ++ ':' :: Service.limitText firstLimit =
        (start ++ second) ++ ':' :: Service.limitText secondLimit := by
    simpa using same
  obtain ⟨pieces, limits⟩ :=
    append_colon_injective (colon_not_mem_limitText firstLimit)
      (colon_not_mem_limitText secondLimit) parts
  exact ⟨List.append_cancel_left pieces, limitText_injective limits⟩

namespace Question

/-- The first letter of the key, which tells the operation. -/
def letter : Question → Char
  | list => 'l'
  | search _ => 's'
  | get _ => 'g'
  | examples _ => 'e'

theorem head?_key (question : Question) :
    question.key.head? = some question.letter := by
  cases question <;> rfl

/-- The key of a question tells the operation and its argument. -/
theorem understood_eq_of_key_eq {first second : Question}
    (same : first.key = second.key) :
    first.understood = second.understood := by
  have letters : some first.letter = some second.letter := by
    rw [← head?_key, ← head?_key, same]
  cases first <;> cases second <;>
    first
    | (simp [letter] at letters; done)
    | skip
  case list.list =>
    rfl
  case search.search first second =>
    obtain ⟨pieces, limits⟩ := searchKey_injective same
    simp only [understood, pieces, limits]
  case get.get first second =>
    unfold key Service.detailKey at same
    generalize "get:".toList = start at same
    have tags : Text.trim first = Text.trim second :=
      List.append_cancel_left same
    simp only [understood, tags]
  case examples.examples first second =>
    unfold key Service.examplesKey at same
    generalize "examples:".toList = start at same
    have tags : Text.trim first = Text.trim second :=
      List.append_cancel_left same
    simp only [understood, tags]

end Question

end ComponentDocs.Query
