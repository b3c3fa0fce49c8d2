import ComponentDocs.Proofs.Query.Question

/-!
What one call does to a service and what it replies.

A call first takes notice of the current version. It then replies with the
answer stored under the key of the question, or makes the reply and stores it
unless it is a failure. It never changes a file.
-/

namespace ComponentDocs

open Files (Disk)

/-! ## Tasks that only look -/

theorem ReleaseSource.current_onlyLooks (source : ReleaseSource) :
    source.current.OnlyLooks := by
  cases source with
  | fixed version =>
      exact .pure version
  | manifest path =>
      exact (FileTask.OnlyLooks.read path).bind fun _ => .pure _

namespace Store

theorem readFirst_onlyLooks (paths : List Text) :
    (readFirst paths).OnlyLooks := by
  induction paths with
  | nil =>
      exact .pure _
  | cons path rest inductionHypothesis =>
      refine (FileTask.OnlyLooks.isFile path).bind fun found => ?_
      cases found with
      | false =>
          exact inductionHypothesis
      | true =>
          refine (FileTask.OnlyLooks.read path).bind fun outcome => ?_
          cases outcome <;> exact .pure _

theorem textOf_onlyLooks (directory : Text) (ends : List Text) (tag : Text) :
    (textOf directory ends tag).OnlyLooks := by
  unfold textOf
  split
  · exact .pure _
  · exact readFirst_onlyLooks _

end Store

namespace Query

theorem Service.makeDetail_onlyLooks (corpus : Corpus) (store : Store)
    (tag : Text) : (makeDetail corpus store tag).OnlyLooks := by
  unfold makeDetail
  split
  · exact .pure _
  · refine FileTask.OnlyLooks.bind ?_ fun _ => .pure _
    refine (Store.textOf_onlyLooks _ _ _).bind fun outcome => ?_
    cases outcome <;> exact .pure _

theorem Service.makeExamples_onlyLooks (store : Store) (tag : Text) :
    (makeExamples store tag).OnlyLooks := by
  refine (Store.textOf_onlyLooks _ _ _).bind fun outcome => ?_
  cases outcome <;> exact .pure _

/-! ## One call -/

namespace Service

def reported (service : Service) (disk : Disk) : Text :=
  (service.source.current.run disk).1

/-- The cache of a service once it has taken notice of the version reported on
a disk. -/
def observed (service : Service) (disk : Disk) : ReleaseCache Text Answer :=
  service.cache.observe (service.reported disk)

/-- What a call may reply, and the cache that it may leave. -/
inductive Served (service : Service) (disk : Disk) (question : Question) :
    Reply → ReleaseCache Text Answer → Prop
  /-- The answer stored under the key of the question. -/
  | stored (answer : Answer) :
      (service.observed disk).value? question.key = some answer →
      Served service disk question answer.reply (service.observed disk)
  /-- A reply made anew and not stored. -/
  | failed :
      Served service disk question
        (question.madeReply service.corpus service.store disk)
        (service.observed disk)
  /-- A reply made anew and stored. -/
  | made (answer : Answer) :
      answer.reply =
        question.madeReply service.corpus service.store disk →
      Served service disk question answer.reply
        ((service.observed disk).set (service.reported disk) question.key
          answer)

/-- A call sees no version change but the one it takes notice of. -/
theorem Served.generation_eq {service : Service} {disk : Disk}
    {question : Question} {reply : Reply} {cache : ReleaseCache Text Answer}
    (served : service.Served disk question reply cache) :
    cache.generation = (service.observed disk).generation := by
  cases served <;> rfl

variable {ε α : Type}

section Answer

variable (service : Service) (key : Text) (fromCache : Answer → Option α)
variable (toCache : α → Answer) (make : FileTask (Except ε α)) (disk : Disk)

theorem answer_run_stored {found : α}
    (lookup :
      ((service.observed disk).value? key).bind fromCache = some found) :
    (service.answer key fromCache toCache make).run disk =
      ((.ok found, { service with cache := service.observed disk }),
        disk) := by
  unfold observed reported at lookup
  unfold answer
  rw [FileTask.run_bind, ReleaseSource.current_onlyLooks]
  simp only [ReleaseCache.get, lookup]
  rfl

variable (looks : make.OnlyLooks)
variable (lookup : ((service.observed disk).value? key).bind fromCache = none)

include looks lookup

theorem answer_run_failed {failure : ε}
    (outcome : (make.run disk).1 = .error failure) :
    (service.answer key fromCache toCache make).run disk =
      ((.error failure, { service with cache := service.observed disk }),
        disk) := by
  unfold observed reported at lookup
  unfold answer
  rw [FileTask.run_bind, ReleaseSource.current_onlyLooks]
  simp only [ReleaseCache.get, lookup]
  rw [FileTask.run_bind, looks, outcome]
  rfl

theorem answer_run_made {value : α}
    (outcome : (make.run disk).1 = .ok value) :
    (service.answer key fromCache toCache make).run disk =
      ((.ok value,
        { service with
          cache := (service.observed disk).set (service.reported disk) key
            (toCache value) }), disk) := by
  unfold observed reported at lookup
  unfold answer
  rw [FileTask.run_bind, ReleaseSource.current_onlyLooks]
  simp only [ReleaseCache.get, lookup]
  rw [FileTask.run_bind, looks, outcome]
  rfl

end Answer

/-- A call on a disk: the reply and the cache are as `Served` allows, and
neither the rest of the service nor the disk changes. -/
structure Call (service : Service) (disk : Disk) (question : Question)
    (reply : Reply) (after : Service) (diskAfter : Disk) : Prop where
  served : Served service disk question reply after.cache
  rest : after = { service with cache := after.cache }
  disk_eq : diskAfter = disk

/-- A call that answers through `answer`, with the stored answers and the
outcomes read as replies. -/
theorem call_of_answer (service : Service) (disk : Disk)
    (question : Question) (fromCache : Answer → Option α)
    (toCache : α → Answer) {make : FileTask (Except ε α)}
    (reading : Except ε α → Reply)
    (looks : make.OnlyLooks)
    (reads : ∀ answer value,
      fromCache answer = some value → answer.reply = reading (.ok value))
    (stores : ∀ value, (toCache value).reply = reading (.ok value))
    (makes : question.madeReply service.corpus service.store disk =
      reading (make.run disk).1) :
    let result :=
      (service.answer question.key fromCache toCache make).run disk
    Call service disk question (reading result.1.1) result.1.2 result.2 := by
  intro result
  cases lookup : ((service.observed disk).value? question.key).bind fromCache
    with
  | some found =>
      obtain ⟨answer, present, read⟩ := Option.bind_eq_some_iff.mp lookup
      have shown : result = _ :=
        answer_run_stored service question.key fromCache toCache make disk
          lookup
      rw [shown]
      refine ⟨?_, rfl, rfl⟩
      rw [← reads answer found read]
      exact .stored answer present
  | none =>
      cases outcome : (make.run disk).1 with
      | error failure =>
          have shown : result = _ :=
            answer_run_failed service question.key fromCache toCache make disk
              looks lookup outcome
          rw [shown]
          refine ⟨?_, rfl, rfl⟩
          rw [← outcome, ← makes]
          exact .failed
      | ok value =>
          have shown : result = _ :=
            answer_run_made service question.key fromCache toCache make disk
              looks lookup outcome
          rw [shown]
          refine ⟨?_, rfl, rfl⟩
          rw [← stores value]
          refine .made (toCache value) ?_
          rw [makes, outcome, stores]

/-- A call that answers through `answerAlways`. -/
theorem call_of_answerAlways (service : Service) (disk : Disk)
    (question : Question) (fromCache : Answer → Option α)
    (toCache : α → Answer) {make : FileTask α} (reading : α → Reply)
    (looks : make.OnlyLooks)
    (reads : ∀ answer value,
      fromCache answer = some value → answer.reply = reading value)
    (stores : ∀ value, (toCache value).reply = reading value)
    (makes : question.madeReply service.corpus service.store disk =
      reading (make.run disk).1) :
    let result :=
      (service.answerAlways question.key fromCache toCache make).run disk
    Call service disk question (reading result.1.1) result.1.2 result.2 := by
  have sure :
      FileTask.OnlyLooks
        (do return .ok (← make) : FileTask (Except Empty α)) :=
    looks.bind fun _ => .pure _
  have call :=
    call_of_answer service disk question fromCache toCache
      (fun outcome => reading (certain outcome)) sure reads stores
      (by rw [makes, FileTask.run_bind]; rfl)
  simpa only [answerAlways, FileTask.run_bind, FileTask.run_pure] using call

/-- Every question is answered by a call. -/
theorem ask_call (service : Service) (disk : Disk) (question : Question) :
    let result := (service.ask question).run disk
    Call service disk question result.1.1 result.1.2 result.2 := by
  cases question with
  | list =>
      have call :=
        call_of_answerAlways service disk .list Answer.listing? .listing
          Reply.listing (.pure (Listing.ofCorpus service.corpus))
          (by intro answer value read; cases answer <;> simp_all [
            Answer.listing?, Answer.reply])
          (fun _ => rfl) rfl
      simpa only [ask, list, Question.key, FileTask.run_bind, FileTask.run_pure]
        using call
  | search request =>
      have call :=
        call_of_answerAlways service disk (.search request) Answer.search?
          .search Reply.search
          (.pure (SearchResult.ofCorpus service.corpus
            (needle request.keyword) request.limit))
          (by intro answer value read; cases answer <;> simp_all [
            Answer.search?, Answer.reply])
          (fun _ => rfl) rfl
      simpa only [ask, search, Question.key, FileTask.run_bind,
        FileTask.run_pure] using call
  | get tag =>
      have call :=
        call_of_answer service disk (.get tag) Answer.detail? .detail
          Reply.detail
          (makeDetail_onlyLooks service.corpus service.store (Text.trim tag))
          (by intro answer value read; cases answer <;> simp_all [
            Answer.detail?, Answer.reply])
          (fun _ => rfl)
          (by simp only [Question.madeReply, Question.makeReply,
            FileTask.run_bind, FileTask.run_pure])
      simpa only [ask, get, Question.key, FileTask.run_bind, FileTask.run_pure]
        using call
  | examples tag =>
      have call :=
        call_of_answerAlways service disk (.examples tag) Answer.examples?
          .examples Reply.examples
          (makeExamples_onlyLooks service.store (Text.trim tag))
          (by intro answer value read; cases answer <;> simp_all [
            Answer.examples?, Answer.reply])
          (fun _ => rfl)
          (by simp only [Question.madeReply, Question.makeReply,
            FileTask.run_bind, FileTask.run_pure])
      simpa only [ask, examples, Question.key, FileTask.run_bind,
        FileTask.run_pure] using call

/-- A service that has just been started makes every reply anew. -/
theorem freshReply_eq (service : Service) (disk : Disk)
    (question : Question) :
    service.freshReply disk question =
      question.madeReply service.corpus service.store disk := by
  have call :=
    ask_call (Service.start service.corpus service.store service.source) disk
      question
  unfold freshReply
  generalize
    (((Service.start service.corpus service.store service.source).ask
      question).run disk) = result at call ⊢
  obtain ⟨⟨reply, after⟩, diskAfter⟩ := result
  have served := call.served
  simp only at served ⊢
  generalize after.cache = cache at served
  cases served with
  | stored answer present =>
      exact absurd present (by
        simp [observed, Service.start, ReleaseCache.observe,
          ReleaseCache.empty, ReleaseCache.value?])
  | failed =>
      rfl
  | made answer shown =>
      exact shown

end Service

end Query

end ComponentDocs
