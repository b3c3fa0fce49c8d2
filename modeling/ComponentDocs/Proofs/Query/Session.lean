import ComponentDocs.Proofs.Query.Call

/-!
Sessions: a service that is asked questions while its corpus is swapped and the
files and the reported version change between the calls.

The cache of a service cannot be seen from its replies: every reply is the one
that a service started that moment would give, with the files as they were at a
call of the same question since the answers were last dropped. The invariant is
that every stored answer was made at such a call.
-/

namespace ComponentDocs.Query

open Files (Disk)

/-- A service at work, the disk that it reads, and how often its corpus has
been swapped. -/
structure Session where
  service : Service
  disk : Disk
  swaps : Nat

/-- What happens in a session: a call, or a change between two calls. -/
inductive Event
  | ask (question : Question)
  | swap (corpus : Corpus)
  | files (disk : Disk)
  | release (source : ReleaseSource)

/-- A call on record: the question and the reply, the service and the disk
before the call, and the swaps and version changes seen up to the reply. -/
structure Exchange where
  question : Question
  reply : Reply
  service : Service
  disk : Disk
  swaps : Nat
  generation : Nat

/-- How often answers have been dropped for a swap and for a new version. Two
calls of one epoch have no swap and no observed version change between them. -/
def Exchange.epoch (exchange : Exchange) : Nat × Nat :=
  (exchange.swaps, exchange.generation)

namespace Session

def start (corpus : Corpus) (store : Store) (source : ReleaseSource)
    (disk : Disk) : Session :=
  ⟨Service.start corpus store source, disk, 0⟩

def epoch (session : Session) : Nat × Nat :=
  (session.swaps, session.service.cache.generation)

def afterCall (session : Session) (question : Question) : Session :=
  { session with
    service := ((session.service.ask question).run session.disk).1.2
    disk := ((session.service.ask question).run session.disk).2 }

def exchange (session : Session) (question : Question) : Exchange where
  question := question
  reply := ((session.service.ask question).run session.disk).1.1
  service := session.service
  disk := session.disk
  swaps := session.swaps
  generation := (session.afterCall question).service.cache.generation

/-- The calls that a session records. -/
def run (session : Session) : List Event → List Exchange
  | [] => []
  | .ask question :: rest =>
      session.exchange question :: (session.afterCall question).run rest
  | .swap corpus :: rest =>
      run { session with
        service := session.service.swap corpus
        swaps := session.swaps + 1 } rest
  | .files disk :: rest => run { session with disk } rest
  | .release source :: rest =>
      run { session with service := { session.service with source } } rest

end Session

/-! ## Replies made anew -/

/-- Two disks hold the same type definitions and examples. -/
def SameTexts (store : Store) (first second : Disk) : Prop :=
  ∀ tag,
    ((store.typeDefinition tag).run first).1 =
        ((store.typeDefinition tag).run second).1 ∧
      ((store.examples tag).run first).1 =
        ((store.examples tag).run second).1

/-- Of a question, a reply made anew depends only on how it is understood. -/
theorem Question.madeReply_eq_of_understood_eq {first second : Question}
    (same : first.understood = second.understood)
    (corpus : Corpus) (store : Store) (disk : Disk) :
    first.madeReply corpus store disk =
      second.madeReply corpus store disk := by
  cases first <;> cases second <;>
    simp_all [understood, madeReply, makeReply]

/-- Of a disk, a reply made anew depends only on the texts of the tags. -/
theorem Question.madeReply_eq_of_sameTexts {store : Store}
    {first second : Disk} (same : SameTexts store first second)
    (corpus : Corpus) (question : Question) :
    question.madeReply corpus store first =
      question.madeReply corpus store second := by
  cases question with
  | list =>
      rfl
  | search request =>
      rfl
  | get tag =>
      obtain ⟨definitions, -⟩ := same (Text.trim tag)
      simp only [madeReply, makeReply, Service.makeDetail]
      split
      · rfl
      · simp only [Service.definitionOf, FileTask.run_bind,
          FileTask.run_pure, definitions]
        split <;> rfl
  | examples tag =>
      obtain ⟨-, contents⟩ := same (Text.trim tag)
      simp only [madeReply, makeReply, Service.makeExamples,
        FileTask.run_bind, FileTask.run_pure, contents]
      split <;> rfl

/-! ## The invariant -/

/-- An answer under a key was made, for a corpus, at a recorded call of a
question with that key in an epoch. -/
def IsMade (past : List Exchange) (epoch : Nat × Nat) (corpus : Corpus)
    (store : Store) (entry : Text × Answer) : Prop :=
  ∃ earlier ∈ past,
    earlier.epoch = epoch ∧
      earlier.question.key = entry.1 ∧
      earlier.reply = entry.2.reply ∧
      earlier.reply =
        earlier.question.madeReply corpus store earlier.disk

/-- Every stored answer was made for the corpus served now, at a call since
answers were last dropped. -/
def Session.IsSound (past : List Exchange) (session : Session) : Prop :=
  ∀ entry ∈ session.service.cache.entries,
    IsMade past session.epoch session.service.corpus session.service.store
      entry

/-- A reply is justified by an exchange of the same question and epoch, which
may be the same one: with the files of that exchange a service started now
would reply so too. -/
def Exchange.IsJustified (past : List Exchange) (exchange : Exchange) : Prop :=
  ∃ earlier ∈ past ++ [exchange],
    earlier.epoch = exchange.epoch ∧
      earlier.question.understood = exchange.question.understood ∧
      earlier.reply = exchange.reply ∧
      exchange.reply =
        exchange.service.freshReply earlier.disk exchange.question

theorem IsMade.later {past : List Exchange} {epoch : Nat × Nat}
    {corpus : Corpus} {store : Store} {entry : Text × Answer}
    (made : IsMade past epoch corpus store entry) (exchange : Exchange) :
    IsMade (past ++ [exchange]) epoch corpus store entry := by
  obtain ⟨earlier, recorded, facts⟩ := made
  exact ⟨earlier, List.mem_append_left _ recorded, facts⟩

/-- A value that a cache gives is one of its entries. -/
theorem mem_entries_of_value? {cache : ReleaseCache Text Answer}
    {key : Text} {answer : Answer} (present : cache.value? key = some answer) :
    (key, answer) ∈ cache.entries := by
  obtain ⟨entry, found, rfl⟩ := Option.map_eq_some_iff.mp present
  have sameKey : entry.1 = key := by
    simpa using List.find?_some found
  rw [← sameKey]
  exact List.mem_of_find?_eq_some found

/-- An entry after a value has been stored is the new one or an old one. -/
theorem mem_entries_set {cache : ReleaseCache Text Answer}
    {current key : Text} {answer : Answer} {entry : Text × Answer}
    (member : entry ∈ (cache.set current key answer).entries) :
    entry = (key, answer) ∨ entry ∈ cache.entries := by
  rcases List.mem_cons.mp member with new | old
  · exact Or.inl new
  · exact Or.inr (List.mem_filter.mp old).1

/-- Taking notice of a version keeps the entries and the epoch, or drops all
entries. -/
theorem mem_entries_observed {service : Service} {disk : Disk}
    {entry : Text × Answer}
    (member : entry ∈ (service.observed disk).entries) :
    entry ∈ service.cache.entries ∧
      (service.observed disk).generation = service.cache.generation := by
  unfold Service.observed ReleaseCache.observe at member ⊢
  cases known : service.cache.knownVersion with
  | none =>
      simp only [known] at member ⊢
      exact ⟨member, trivial⟩
  | some version =>
      simp only [known] at member ⊢
      by_cases same : version = service.reported disk
      · simp only [same, if_true] at member ⊢
        exact ⟨member, trivial⟩
      · simp only [same, if_false] at member
        exact absurd member List.not_mem_nil

namespace Exchange

variable {past : List Exchange} {exchange : Exchange}

/-- An exchange whose reply is made anew justifies itself. -/
theorem isJustified_of_made
    (made : exchange.reply =
      exchange.question.madeReply exchange.service.corpus
        exchange.service.store exchange.disk) :
    exchange.IsJustified past := by
  refine ⟨exchange, by simp, rfl, rfl, rfl, ?_⟩
  rw [Service.freshReply_eq, made]

/-- An exchange whose reply is a stored answer is justified by the exchange
that the answer was made at. -/
theorem isJustified_of_stored {answer : Answer}
    (stored : exchange.reply = answer.reply)
    (made : IsMade past exchange.epoch exchange.service.corpus
      exchange.service.store (exchange.question.key, answer)) :
    exchange.IsJustified past := by
  obtain ⟨earlier, recorded, sameEpoch, sameKey, sameReply, shown⟩ := made
  have sameQuestion :
      earlier.question.understood = exchange.question.understood :=
    Question.understood_eq_of_key_eq sameKey
  refine ⟨earlier, List.mem_append_left _ recorded, sameEpoch, sameQuestion,
    sameReply.trans stored.symm, ?_⟩
  calc
    exchange.reply = earlier.reply := stored.trans sameReply.symm
    _ = earlier.question.madeReply exchange.service.corpus
          exchange.service.store earlier.disk := shown
    _ = exchange.question.madeReply exchange.service.corpus
          exchange.service.store earlier.disk :=
        Question.madeReply_eq_of_understood_eq sameQuestion _ _ _
    _ = exchange.service.freshReply earlier.disk exchange.question :=
        (Service.freshReply_eq _ _ _).symm

/-- A call over a cache of which every entry was made: its exchange is
justified, and every entry of the cache it leaves was made. -/
theorem isJustified_of_served (exchange : Exchange)
    {cache : ReleaseCache Text Answer}
    (known : ∀ entry ∈ (exchange.service.observed exchange.disk).entries,
      IsMade past exchange.epoch exchange.service.corpus
        exchange.service.store entry)
    (served : exchange.service.Served exchange.disk exchange.question
      exchange.reply cache) :
    exchange.IsJustified past ∧
      ∀ entry ∈ cache.entries,
        IsMade (past ++ [exchange]) exchange.epoch exchange.service.corpus
          exchange.service.store entry := by
  generalize replyEq : exchange.reply = reply at served
  cases served with
  | stored answer present =>
      exact ⟨isJustified_of_stored replyEq
          (known _ (mem_entries_of_value? present)),
        fun entry member => (known entry member).later exchange⟩
  | failed =>
      exact ⟨isJustified_of_made replyEq,
        fun entry member => (known entry member).later exchange⟩
  | made answer shown =>
      refine ⟨isJustified_of_made (replyEq.trans shown), ?_⟩
      intro entry member
      rcases mem_entries_set member with rfl | old
      · exact ⟨exchange, by simp, rfl, rfl, replyEq, replyEq.trans shown⟩
      · exact (known entry old).later exchange

end Exchange

namespace Session

theorem start_isSound (corpus : Corpus) (store : Store)
    (source : ReleaseSource) (disk : Disk) :
    (start corpus store source disk).IsSound [] := by
  intro entry member
  exact absurd member List.not_mem_nil

variable {past : List Exchange} {session : Session}

theorem afterCall_corpus (session : Session) (question : Question) :
    (session.afterCall question).service.corpus = session.service.corpus := by
  have call := session.service.ask_call session.disk question
  exact (congrArg Service.corpus call.rest :)

theorem afterCall_store (session : Session) (question : Question) :
    (session.afterCall question).service.store = session.service.store := by
  have call := session.service.ask_call session.disk question
  exact (congrArg Service.store call.rest :)

/-- A call belongs to the epoch that begins when it takes notice of the
version. -/
theorem exchange_generation (session : Session) (question : Question) :
    (session.exchange question).generation =
      (session.service.observed session.disk).generation :=
  (session.service.ask_call session.disk question).served.generation_eq

/-- A call is justified and keeps the invariant. -/
theorem IsSound.afterCall (sound : session.IsSound past)
    (question : Question) :
    (session.exchange question).IsJustified past ∧
      (session.afterCall question).IsSound
        (past ++ [session.exchange question]) := by
  have known :
      ∀ entry ∈ (session.service.observed session.disk).entries,
        IsMade past (session.exchange question).epoch session.service.corpus
          session.service.store entry := by
    intro entry member
    -- An entry survives only where no new version is noticed.
    obtain ⟨present, sameGeneration⟩ := mem_entries_observed member
    have sameEpoch :
        (session.exchange question).epoch = session.epoch := by
      simp only [Exchange.epoch, exchange_generation, sameGeneration]
      rfl
    rw [sameEpoch]
    exact sound entry present
  have call :=
    Exchange.isJustified_of_served (session.exchange question) known
      (session.service.ask_call session.disk question).served
  refine ⟨call.1, ?_⟩
  intro entry member
  rw [afterCall_corpus, afterCall_store]
  exact call.2 entry member

/-- Every exchange of a run from a sound session is justified by itself or by
one before it. -/
theorem IsSound.run (sound : session.IsSound past) (events : List Event)
    {before after : List Exchange} {exchange : Exchange}
    (split : session.run events = before ++ exchange :: after) :
    exchange.IsJustified (past ++ before) := by
  -- The invariant is carried along the events. A swap leaves no entries, and a
  -- change of the files or of the source leaves them as they are.
  induction events generalizing past session before with
  | nil =>
      simp [Session.run] at split
  | cons event rest inductionHypothesis =>
      cases event with
      | ask question =>
          obtain ⟨justified, soundAfter⟩ := sound.afterCall question
          cases before with
          | nil =>
              simp only [Session.run, List.nil_append, List.cons.injEq]
                at split
              rw [← split.1, List.append_nil]
              exact justified
          | cons first others =>
              simp only [Session.run, List.cons_append, List.cons.injEq]
                at split
              have later := inductionHypothesis soundAfter split.2
              rw [split.1] at later
              simpa using later
      | swap corpus =>
          refine inductionHypothesis ?_ split
          intro entry member
          exact absurd member List.not_mem_nil
      | files disk =>
          have stillSound : ({ session with disk } : Session).IsSound past :=
            sound
          exact inductionHypothesis stillSound split
      | release source =>
          have stillSound :
              ({ session with service :=
                { session.service with source } } : Session).IsSound past :=
            sound
          exact inductionHypothesis stillSound split

end Session

/-! ## Replies cannot tell of the cache -/

/-- In every session each reply is the one that a service started at that
moment would give with the files as they were at a call of the same question,
this one or one since the corpus was last swapped and since a new version was
last noticed. With the files unchanged since then it is the reply of a service
without stored answers. -/
theorem reply_transparent (corpus : Corpus) (store : Store)
    (source : ReleaseSource) (disk : Disk) (events : List Event)
    {past future : List Exchange} {exchange : Exchange}
    (split :
      (Session.start corpus store source disk).run events =
        past ++ exchange :: future) :
    exchange.IsJustified past ∧
      ((∀ earlier ∈ past, earlier.epoch = exchange.epoch →
          SameTexts exchange.service.store earlier.disk exchange.disk) →
        exchange.reply =
          exchange.service.freshReply exchange.disk exchange.question) := by
  have sound := Session.start_isSound corpus store source disk
  have justified : exchange.IsJustified past := by
    simpa using sound.run events split
  refine ⟨justified, ?_⟩
  intro unchanged
  obtain ⟨earlier, recorded, sameEpoch, -, -, reply⟩ := justified
  rcases List.mem_append.mp recorded with before | itself
  · rw [reply, Service.freshReply_eq, Service.freshReply_eq]
    exact Question.madeReply_eq_of_sameTexts
      (unchanged earlier before sameEpoch) _ _
  · rw [List.mem_singleton.mp itself] at reply
    exact reply

/-- The examples of a tag appear on the disk between two calls: the second call
still replies that there are none, as the first one found. -/
theorem late_examples_transparent :
    let question : Question := .examples ['a']
    let session :=
      Session.start ⟨[], ⟨2024, 5, 1, 0, 0, 0, 0⟩, []⟩ ⟨['d']⟩ (.fixed ['1'])
        ⟨.directory [], []⟩
    let filled : Disk :=
      ⟨.directory [(['d'], .directory [("examples".toList,
        .directory [("a.md".toList, .file (.text ['x']))])])], []⟩
    let first := session.exchange question
    let second :=
      { session.afterCall question with disk := filled }.exchange question
    session.run [.ask question, .files filled, .ask question] =
        [first] ++ second :: [] ∧
      second.reply = .examples (.placeholder ['a']) ∧
      second.service.freshReply filled question =
        .examples ⟨['a'], ['x'], true⟩ ∧
      second.IsJustified [first] := by
  intro question session filled first second
  have split :
      session.run [.ask question, .files filled, .ask question] =
        [first] ++ second :: [] := by
    simp only [Session.run, List.cons_append, List.nil_append, first, second]
  refine ⟨split, by decide +kernel, by decide +kernel, ?_⟩
  exact (reply_transparent _ _ _ _ _ split).1

end ComponentDocs.Query
