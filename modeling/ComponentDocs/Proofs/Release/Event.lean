import ComponentDocs.Release.Cache
import Mathlib.Data.List.Basic

/-!
A cache among events: look-ups, stores and removals, with releases at the
source between them, and what one event does to one key and to the known
version.
-/

namespace ComponentDocs.ReleaseCache

variable {κ α : Type} [DecidableEq κ]

/-! ## One key -/

theorem value?_without (cache : ReleaseCache κ α) (removed key : κ) :
    ({ cache with entries := without removed cache.entries } :
        ReleaseCache κ α).value? key =
      if removed = key then none else cache.value? key := by
  unfold value? without
  rw [List.find?_filter]
  by_cases same : removed = key
  · simp [same]
  · have tests (entry : κ × α) :
        (entry.1 ≠ removed ∧ entry.1 = key) ↔ entry.1 = key :=
      and_iff_right_of_imp fun equality => equality ▸ Ne.symm same
    simp only [same, if_false, decide_eq_true_eq, tests]

theorem value?_set (cache : ReleaseCache κ α) (current : Text)
    (stored key : κ) (value : α) :
    (cache.set current stored value).value? key =
      if stored = key then some value else cache.value? key := by
  by_cases same : stored = key
  · simp [set, value?, same]
  · have rest := value?_without cache stored key
    simp only [value?, same, if_false] at rest
    simp [set, value?, same, rest]

theorem value?_delete (cache : ReleaseCache κ α) (removed key : κ) :
    (cache.delete removed).2.value? key =
      if removed = key then none else cache.value? key :=
  value?_without cache removed key

theorem value?_clear (cache : ReleaseCache κ α) (key : κ) :
    cache.clear.value? key = none :=
  rfl

/-- Whether a version is known and is another than the current one. -/
def IsBehind (cache : ReleaseCache κ α) (current : Text) : Prop :=
  ∃ known, cache.knownVersion = some known ∧ known ≠ current

/-- Taking notice of a version drops every value of another one and nothing
else. -/
theorem value?_observe_of_isBehind {cache : ReleaseCache κ α} {current : Text}
    (behind : cache.IsBehind current) (key : κ) :
    (cache.observe current).value? key = none := by
  obtain ⟨known, isKnown, different⟩ := behind
  simp [observe, isKnown, different, value?]

theorem value?_observe_of_not_isBehind {cache : ReleaseCache κ α}
    {current : Text} (upToDate : ¬ cache.IsBehind current) (key : κ) :
    (cache.observe current).value? key = cache.value? key := by
  unfold observe
  cases isKnown : cache.knownVersion with
  | none =>
      rfl
  | some known =>
      have same : known = current := by
        by_contra different
        exact upToDate ⟨known, isKnown, different⟩
      simp [same]

omit [DecidableEq κ] in
@[simp]
theorem knownVersion_observe (cache : ReleaseCache κ α) (current : Text) :
    (cache.observe current).knownVersion = some current := by
  unfold observe
  cases isKnown : cache.knownVersion with
  | none =>
      rfl
  | some known =>
      by_cases same : known = current
      · simp [same, isKnown]
      · simp [same]

/-! ## Events -/

/-- What happens to a cache, or to the source of its versions. -/
inductive Event (κ α : Type)
  | get (key : κ)
  | set (key : κ) (value : α)
  | delete (key : κ)
  | clear
  | release (version : Text)
deriving DecidableEq

/-- A cache, and the version that its source reports. -/
structure Moment (κ α : Type) where
  cache : ReleaseCache κ α
  reported : Text

def Moment.step (moment : Moment κ α) : Event κ α → Moment κ α
  | .get key =>
      { moment with cache := (moment.cache.get moment.reported key).2 }
  | .set key value =>
      { moment with cache := moment.cache.set moment.reported key value }
  | .delete key => { moment with cache := (moment.cache.delete key).2 }
  | .clear => { moment with cache := moment.cache.clear }
  | .release version => { moment with reported := version }

/-- The moment after the events of a history that starts with an empty cache
and a source that reports `first`. -/
def momentAfter (first : Text) (events : List (Event κ α)) : Moment κ α :=
  events.foldl Moment.step ⟨.empty, first⟩

/-- What a look-up after a history gives. -/
def found? (first : Text) (past : List (Event κ α)) (key : κ) : Option α :=
  ((momentAfter first past).cache.get (momentAfter first past).reported key).1

def Event.released? : Event κ α → Option Text
  | .release version => some version
  | _ => none

/-- All versions that the source of a history reports, in their order. -/
def versions (first : Text) (events : List (Event κ α)) : List Text :=
  first :: events.filterMap Event.released?

/-- No version is reported before and after another one. -/
def NeverReturns (versions : List Text) : Prop :=
  ∀ version other, other ≠ version →
    ¬ [version, other, version].Sublist versions

/-- Whether an event puts another value under a key or removes what is there,
whatever the versions are. -/
def Event.Replaces (key : κ) : Event κ α → Prop
  | .get _ => False
  | .set stored _ => stored = key
  | .delete removed => removed = key
  | .clear => True
  | .release _ => False

/-- Whether an event after a history is a look-up that notices a change of the
version. -/
def Event.NoticesChange (first : Text) (earlier : List (Event κ α)) :
    Event κ α → Prop
  | .get _ =>
      (momentAfter first earlier).cache.IsBehind
        (momentAfter first earlier).reported
  | _ => False

/-- Whether an event asks the source. -/
def Event.MayObserve : Event κ α → Prop
  | .get _ => True
  | .set _ _ => True
  | _ => False

/-- Whether the cache takes notice of the version at an event after a history:
at a look-up, and at a store before which nothing has asked the source. -/
def Event.Observes (earlier : List (Event κ α)) : Event κ α → Prop
  | .get _ => True
  | .set _ _ => ∀ event ∈ earlier, ¬ event.MayObserve
  | _ => False

/-! ## One event -/

theorem momentAfter_concat (first : Text) (events : List (Event κ α))
    (event : Event κ α) :
    momentAfter first (events ++ [event]) =
      (momentAfter first events).step event := by
  rw [momentAfter, List.foldl_concat]
  rfl

theorem reported_step (moment : Moment κ α) (event : Event κ α) :
    (moment.step event).reported = event.released?.getD moment.reported := by
  cases event <;> rfl

theorem knownVersion_step_get (moment : Moment κ α) (key : κ) :
    (moment.step (.get key)).cache.knownVersion = some moment.reported :=
  knownVersion_observe _ _

/-- An event that asks no source leaves the known version as it is. -/
theorem knownVersion_step {event : Event κ α} (moment : Moment κ α)
    (quiet : ¬ event.MayObserve) :
    (moment.step event).cache.knownVersion = moment.cache.knownVersion := by
  cases event with
  | get key => exact absurd trivial quiet
  | set key value => exact absurd trivial quiet
  | delete key => rfl
  | clear => rfl
  | release version => rfl

/-- A known version stays known at an event, unless a look-up finds another
version reported. -/
theorem knownVersion_step_of_known {moment : Moment κ α} {known : Text}
    {event : Event κ α} (isKnown : moment.cache.knownVersion = some known)
    (same : ∀ key, event = .get key → moment.reported = known) :
    (moment.step event).cache.knownVersion = some known := by
  cases event with
  | get key =>
      rw [knownVersion_step_get, same key rfl]
  | set key value =>
      simp [Moment.step, set, isKnown]
  | delete key => exact isKnown
  | clear => exact isKnown
  | release version => exact isKnown

/-- No event notices a change when the reported version is the known one. -/
theorem not_noticesChange {first : Text} {past : List (Event κ α)}
    {event : Event κ α}
    (upToDate : (momentAfter first past).cache.knownVersion =
      some (momentAfter first past).reported) :
    ¬ event.NoticesChange first past := by
  intro notices
  cases event with
  | get key =>
      obtain ⟨known, isKnown, different⟩ := notices
      rw [upToDate] at isKnown
      exact different (Option.some.inj isKnown).symm
  | set key value => exact notices
  | delete key => exact notices
  | clear => exact notices
  | release version => exact notices

/-- A value is under a key after an event that stores it there, and after one
that leaves the value that was there. -/
theorem value?_step_eq_some_iff {first : Text} {past : List (Event κ α)}
    {event : Event κ α} {key : κ} {value : α} :
    (momentAfter first (past ++ [event])).cache.value? key = some value ↔
      event = .set key value ∨
        ((momentAfter first past).cache.value? key = some value ∧
          ¬ event.Replaces key ∧ ¬ event.NoticesChange first past) := by
  rw [momentAfter_concat]
  cases event with
  | get looked =>
      by_cases behind : (momentAfter first past).cache.IsBehind
          (momentAfter first past).reported
      · simp [Moment.step, get, value?_observe_of_isBehind behind,
          Event.NoticesChange, behind]
      · simp [Moment.step, get, value?_observe_of_not_isBehind behind,
          Event.NoticesChange, Event.Replaces, behind]
  | set stored new =>
      by_cases same : stored = key
      · simp [Moment.step, value?_set, Event.Replaces, same]
      · simp [Moment.step, value?_set, Event.Replaces, Event.NoticesChange,
          same]
  | delete removed =>
      by_cases same : removed = key
      · simp [Moment.step, value?_delete, Event.Replaces, same]
      · simp [Moment.step, value?_delete, Event.Replaces, Event.NoticesChange,
          same]
  | clear =>
      simp [Moment.step, value?_clear, Event.Replaces]
  | release version =>
      simp [Moment.step, Event.Replaces, Event.NoticesChange]

end ComponentDocs.ReleaseCache
