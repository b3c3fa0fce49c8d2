import ComponentDocs.Proofs.Release.Event
import Mathlib.Data.List.Induction

/-!
What a cache keeps besides its entries, over whole histories: the known version
is the one reported at the latest look-up, or at the first store if nothing has
been looked up, and the generation counts the look-ups that found another
version than the known one.
-/

namespace ComponentDocs.ReleaseCache

variable {κ α : Type} [DecidableEq κ]

/-! ## Events with their past -/

/-- The events of a history, each with all that came before it; `earlier` came
before the first of them. -/
def withPast {ε : Type} (earlier : List ε) : List ε → List (List ε × ε)
  | [] => []
  | event :: rest => (earlier, event) :: withPast (earlier ++ [event]) rest

theorem withPast_concat {ε : Type} (earlier events : List ε) (event : ε) :
    withPast earlier (events ++ [event]) =
      withPast earlier events ++ [(earlier ++ events, event)] := by
  induction events generalizing earlier with
  | nil =>
      simp [withPast]
  | cons head tail inductionHypothesis =>
      rw [List.cons_append, withPast, inductionHypothesis]
      simp [withPast]

def Event.isGet : Event κ α → Bool
  | .get _ => true
  | _ => false

def Event.isSet : Event κ α → Bool
  | .set _ _ => true
  | _ => false

/-- The versions that the source reports at the events of a kind, in the order
of the history. -/
def reportsAt (kind : Event κ α → Bool) (first : Text)
    (events : List (Event κ α)) : List Text :=
  (withPast [] events).filterMap fun (earlier, event) =>
    if kind event then some (momentAfter first earlier).reported else none

/-- The version reported at the latest look-up, and at the first store if there
was no look-up. -/
def lastNoticed? (first : Text) (events : List (Event κ α)) : Option Text :=
  (reportsAt Event.isGet first events).getLast?.or
    (reportsAt Event.isSet first events).head?

instance (cache : ReleaseCache κ α) (current : Text) :
    Decidable (cache.IsBehind current) :=
  decidable_of_iff (∃ known ∈ cache.knownVersion, known ≠ current) Iff.rfl

instance (first : Text) (earlier : List (Event κ α)) (event : Event κ α) :
    Decidable (event.NoticesChange first earlier) :=
  match event with
  | .get _ => inferInstanceAs (Decidable (IsBehind _ _))
  | .set _ _ => .isFalse id
  | .delete _ => .isFalse id
  | .clear => .isFalse id
  | .release _ => .isFalse id

/-- How many look-ups of a history find another version reported than the one
known just before them. -/
def changesNoticed (first : Text) (events : List (Event κ α)) : Nat :=
  (withPast [] events).countP fun (earlier, event) =>
    event.NoticesChange first earlier

/-! ## One event more -/

theorem reportsAt_concat (kind : Event κ α → Bool) (first : Text)
    (events : List (Event κ α)) (event : Event κ α) :
    reportsAt kind first (events ++ [event]) =
      reportsAt kind first events ++
        if kind event then [(momentAfter first events).reported] else [] := by
  rw [reportsAt, withPast_concat, List.filterMap_append]
  cases holds : kind event <;> simp [reportsAt, holds]

/-- A store is noticed only when nothing was noticed before. -/
theorem lastNoticed?_concat (first : Text) (events : List (Event κ α))
    (event : Event κ α) :
    lastNoticed? first (events ++ [event]) =
      match event with
      | .get _ => some (momentAfter first events).reported
      | .set _ _ =>
          some ((lastNoticed? first events).getD
            (momentAfter first events).reported)
      | _ => lastNoticed? first events := by
  rw [lastNoticed?, reportsAt_concat, reportsAt_concat]
  cases event with
  | get key =>
      simp [Event.isGet]
  | set key value =>
      simp only [lastNoticed?, Event.isGet, Event.isSet, List.append_nil,
        if_true, Bool.false_eq_true, if_false]
      cases (reportsAt Event.isGet first events).getLast? with
      | some version => rfl
      | none => cases reportsAt Event.isSet first events <;> rfl
  | delete key =>
      simp [Event.isGet, Event.isSet, lastNoticed?]
  | clear =>
      simp [Event.isGet, Event.isSet, lastNoticed?]
  | release version =>
      simp [Event.isGet, Event.isSet, lastNoticed?]

theorem changesNoticed_concat (first : Text) (events : List (Event κ α))
    (event : Event κ α) :
    changesNoticed first (events ++ [event]) =
      changesNoticed first events +
        if event.NoticesChange first events then 1 else 0 := by
  rw [changesNoticed, withPast_concat, List.countP_append]
  simp [changesNoticed, List.countP_singleton]

omit [DecidableEq κ] in
/-- Taking notice of a version is a change when another one is known, which
drops all entries and counts; else entries and count stay. -/
theorem observe_cases (cache : ReleaseCache κ α) (current : Text) :
    (cache.IsBehind current ∧
        cache.observe current = ⟨[], some current, cache.generation + 1⟩) ∨
      (¬ cache.IsBehind current ∧
        cache.observe current =
          { cache with knownVersion := some current }) := by
  unfold observe IsBehind
  cases isKnown : cache.knownVersion with
  | none =>
      right
      simp
  | some known =>
      by_cases same : known = current
      · right
        subst same
        refine ⟨by simp, ?_⟩
        simp only [if_true]
        rw [← isKnown]
      · left
        simp [same]

/-- Only a look-up changes the generation: it counts the change that it
notices, and leaves no entry then. -/
theorem generation_step (first : Text) (past : List (Event κ α))
    (event : Event κ α) :
    let cache := (momentAfter first past).cache
    let after := (momentAfter first (past ++ [event])).cache
    (event.NoticesChange first past ∧ (∃ key, event = .get key) ∧
        after.generation = cache.generation + 1 ∧ after.entries = []) ∨
      (¬ event.NoticesChange first past ∧
        after.generation = cache.generation) := by
  intro cache after
  have isAfter : after = ((momentAfter first past).step event).cache :=
    congrArg Moment.cache (momentAfter_concat first past event)
  rw [isAfter]
  cases event with
  | get key =>
      rcases observe_cases cache (momentAfter first past).reported with
        ⟨behind, isObserved⟩ | ⟨upToDate, isObserved⟩
      · left
        change _ ∧ _ ∧ (cache.observe _).generation = _ ∧
          (cache.observe _).entries = _
        rw [isObserved]
        exact ⟨behind, ⟨key, rfl⟩, rfl, rfl⟩
      · right
        change _ ∧ (cache.observe _).generation = _
        rw [isObserved]
        exact ⟨upToDate, rfl⟩
  | set key value =>
      exact .inr ⟨id, rfl⟩
  | delete key =>
      exact .inr ⟨id, rfl⟩
  | clear =>
      exact .inr ⟨id, rfl⟩
  | release version =>
      exact .inr ⟨id, rfl⟩

/-! ## Whole histories -/

theorem knownVersion_eq_lastNoticed? (first : Text)
    (past : List (Event κ α)) :
    (momentAfter first past).cache.knownVersion = lastNoticed? first past := by
  induction past using List.reverseRecOn with
  | nil =>
      rfl
  | append_singleton past event inductionHypothesis =>
      rw [lastNoticed?_concat, momentAfter_concat, ← inductionHypothesis]
      cases event with
      | get key =>
          exact knownVersion_step_get _ _
      | set key value =>
          rfl
      | delete key =>
          rfl
      | clear =>
          rfl
      | release version =>
          rfl

theorem generation_eq_changesNoticed (first : Text)
    (past : List (Event κ α)) :
    (momentAfter first past).cache.generation = changesNoticed first past := by
  induction past using List.reverseRecOn with
  | nil =>
      rfl
  | append_singleton past event inductionHypothesis =>
      rw [changesNoticed_concat, ← inductionHypothesis]
      rcases generation_step first past event with
        ⟨notices, -, counted, -⟩ | ⟨quiet, same⟩
      · rw [if_pos notices, counted]
      · rw [if_neg quiet, same, Nat.add_zero]

/-- Entries belong to a version that is known. -/
theorem exists_knownVersion_of_entries {first : Text}
    {past : List (Event κ α)}
    (nonempty : (momentAfter first past).cache.entries ≠ []) :
    ∃ known, (momentAfter first past).cache.knownVersion = some known := by
  induction past using List.reverseRecOn with
  | nil =>
      exact absurd rfl nonempty
  | append_singleton past event inductionHypothesis =>
      rw [momentAfter_concat] at nonempty ⊢
      cases event with
      | get key =>
          exact ⟨_, knownVersion_step_get _ _⟩
      | set key value =>
          exact ⟨_, rfl⟩
      | delete key =>
          apply inductionHypothesis
          intro empty
          apply nonempty
          simp [Moment.step, delete, without, empty]
      | clear =>
          exact absurd rfl nonempty
      | release version =>
          exact inductionHypothesis nonempty

/-- The books of a cache after any history: entries belong to a known version;
the known version is the one reported at the latest look-up, or at the first
store before any look-up; the generation counts the look-ups that found another
version than the known one. Nothing but such a look-up changes it, which leaves
the cache without entries. -/
theorem books_after_history (first : Text) (past : List (Event κ α)) :
    let cache := (momentAfter first past).cache
    (cache.entries ≠ [] → ∃ known, cache.knownVersion = some known) ∧
      cache.knownVersion = lastNoticed? first past ∧
      cache.generation = changesNoticed first past ∧
      ∀ event,
        let after := (momentAfter first (past ++ [event])).cache
        after.generation = cache.generation ∨
          ((∃ key, event = .get key) ∧
            after.generation = cache.generation + 1 ∧ after.entries = []) := by
  intro cache
  refine ⟨exists_knownVersion_of_entries,
    knownVersion_eq_lastNoticed? first past,
    generation_eq_changesNoticed first past, fun event => ?_⟩
  rcases generation_step first past event with
    ⟨-, isGet, counted, empty⟩ | ⟨-, same⟩
  · exact .inr ⟨isGet, counted, empty⟩
  · exact .inl same

/-- A store under a new version does not notice it; the look-up after it does,
once. -/
example :
    let past : List (Event Nat Nat) :=
      [.set 0 1, .release ['2'], .set 1 1, .get 0, .get 0]
    lastNoticed? ['1'] (past.take 3) = some ['1'] ∧
      lastNoticed? ['1'] past = some ['2'] ∧ changesNoticed ['1'] past = 1 := by
  decide

end ComponentDocs.ReleaseCache
