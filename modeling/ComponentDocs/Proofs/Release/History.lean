import ComponentDocs.Proofs.Release.Event
import Mathlib.Data.List.Induction

/-!
The history of a cache.

A cache holds under a key what its history last stored there and has not
dropped since. When the source never comes back to a version it has left, a
look-up therefore gives values of the current release only, and gives all those
that were stored after the release had been noticed.
-/

namespace ComponentDocs.ReleaseCache

variable {κ α : Type} [DecidableEq κ]

/-! ## What a history leaves under a key -/

/-- None of the events after a history replaces the value of a key or notices
a change of the version. -/
def Undisturbed (first : Text) (earlier : List (Event κ α)) (key : κ)
    (after : List (Event κ α)) : Prop :=
  ∀ between event rest, after = between ++ event :: rest →
    ¬ event.Replaces key ∧ ¬ event.NoticesChange first (earlier ++ between)

/-- A history stores a value under a key and does not disturb it after that. -/
def Stores (first : Text) (past : List (Event κ α)) (key : κ) (value : α) :
    Prop :=
  ∃ before after,
    past = before ++ .set key value :: after ∧
      Undisturbed first (before ++ [.set key value]) key after

theorem undisturbed_concat_iff {first : Text} {earlier : List (Event κ α)}
    {key : κ} {after : List (Event κ α)} {event : Event κ α} :
    Undisturbed first earlier key (after ++ [event]) ↔
      Undisturbed first earlier key after ∧
        ¬ event.Replaces key ∧ ¬ event.NoticesChange first (earlier ++ after) := by
  constructor
  · intro undisturbed
    refine ⟨?_, undisturbed after event [] rfl⟩
    rintro between inner rest rfl
    exact undisturbed between inner (rest ++ [event]) (by simp)
  · rintro ⟨before, last⟩ between inner rest split
    rcases List.eq_nil_or_concat' rest with rfl | ⟨others, final, rfl⟩
    · obtain ⟨rfl, equality⟩ := List.append_inj' split rfl
      rw [← List.head_eq_of_cons_eq equality]
      exact last
    · have shape : after ++ [event] = (between ++ inner :: others) ++ [final] := by
        simpa using split
      exact before between inner others (List.append_inj' shape rfl).1

theorem stores_concat_iff {first : Text} {past : List (Event κ α)}
    {event : Event κ α} {key : κ} {value : α} :
    Stores first (past ++ [event]) key value ↔
      event = .set key value ∨
        (Stores first past key value ∧
          ¬ event.Replaces key ∧ ¬ event.NoticesChange first past) := by
  constructor
  · rintro ⟨before, after, split, undisturbed⟩
    rcases List.eq_nil_or_concat' after with rfl | ⟨others, final, rfl⟩
    · obtain ⟨-, equality⟩ := List.append_inj' split rfl
      exact .inl (List.head_eq_of_cons_eq equality)
    · have shape :
          past ++ [event] = (before ++ .set key value :: others) ++ [final] := by
        simpa using split
      obtain ⟨rfl, equality⟩ := List.append_inj' shape rfl
      obtain rfl := List.head_eq_of_cons_eq equality
      rw [undisturbed_concat_iff] at undisturbed
      refine .inr ⟨⟨before, others, rfl, undisturbed.1⟩, ?_⟩
      simpa using undisturbed.2
  · rintro (rfl | ⟨⟨before, after, rfl, undisturbed⟩, kept⟩)
    · refine ⟨past, [], rfl, ?_⟩
      intro between event rest split
      simp at split
    · refine ⟨before, after ++ [event], by simp, ?_⟩
      exact undisturbed_concat_iff.mpr ⟨undisturbed, by simpa using kept⟩

/-- A cache holds under a key what its history stores there. -/
theorem value?_momentAfter_eq_some_iff {first : Text}
    {past : List (Event κ α)} {key : κ} {value : α} :
    (momentAfter first past).cache.value? key = some value ↔
      Stores first past key value := by
  induction past using List.reverseRecOn with
  | nil =>
      constructor
      · intro present
        exact absurd present (by simp [momentAfter, empty, value?])
      · rintro ⟨before, after, split, -⟩
        simp at split
  | append_singleton past event inductionHypothesis =>
      rw [value?_step_eq_some_iff, stores_concat_iff, inductionHypothesis]

/-- A look-up gives what the history stores, the look-up itself included. -/
theorem found?_eq_some_iff {first : Text} {past : List (Event κ α)} {key : κ}
    {value : α} :
    found? first past key = some value ↔
      Stores first (past ++ [.get key]) key value := by
  rw [← value?_momentAfter_eq_some_iff, momentAfter_concat]
  rfl

/-! ## Versions -/

omit [DecidableEq κ] in
theorem versions_append (first : Text) (past after : List (Event κ α)) :
    versions first (past ++ after) =
      versions first past ++ after.filterMap Event.released? := by
  simp [versions]

/-- The source reports the last of the versions. -/
theorem getLast?_versions (first : Text) (events : List (Event κ α)) :
    (versions first events).getLast? =
      some (momentAfter first events).reported := by
  induction events using List.reverseRecOn with
  | nil =>
      rfl
  | append_singleton events event inductionHypothesis =>
      rw [versions_append, momentAfter_concat, reported_step]
      cases released : event.released? with
      | none =>
          simpa [released] using inductionHypothesis
      | some version =>
          simp [released]

theorem reported_mem_versions (first : Text) (events : List (Event κ α)) :
    (momentAfter first events).reported ∈ versions first events :=
  List.mem_of_getLast? (getLast?_versions first events)

/-- A known version is one that the source has reported. -/
theorem mem_versions_of_knownVersion {first : Text}
    {past : List (Event κ α)} {known : Text}
    (isKnown : (momentAfter first past).cache.knownVersion = some known) :
    known ∈ versions first past := by
  induction past using List.reverseRecOn with
  | nil =>
      exact absurd isKnown (by simp [momentAfter, empty])
  | append_singleton past event inductionHypothesis =>
      rw [versions_append]
      rw [momentAfter_concat] at isKnown
      apply List.mem_append_left
      cases event with
      | get key =>
          rw [knownVersion_step_get] at isKnown
          rw [← Option.some.inj isKnown]
          exact reported_mem_versions first past
      | set key value =>
          cases before : (momentAfter first past).cache.knownVersion with
          | none =>
              have noted : (momentAfter first past).reported = known := by
                simpa [Moment.step, set, before] using isKnown
              rw [← noted]
              exact reported_mem_versions first past
          | some version =>
              have kept : version = known := by
                simpa [Moment.step, set, before] using isKnown
              exact inductionHypothesis (kept ▸ before)
      | delete key =>
          exact inductionHypothesis isKnown
      | clear =>
          exact inductionHypothesis isKnown
      | release version =>
          exact inductionHypothesis isKnown

/-- A version that has been reported once and is reported at the end of a
history is reported at every moment in between. -/
theorem NeverReturns.reported_eq {first version : Text}
    {past after : List (Event κ α)}
    (stable : NeverReturns (versions first (past ++ after)))
    (earlier : version ∈ versions first past)
    (later : (momentAfter first (past ++ after)).reported = version) :
    (momentAfter first past).reported = version := by
  by_contra different
  set other := (momentAfter first past).reported
  have lastOfPast := getLast?_versions first past
  have lastOfAll := getLast?_versions first (past ++ after)
  rw [later, versions_append] at lastOfAll
  rw [versions_append] at stable
  generalize versions first past = before at *
  generalize after.filterMap Event.released? = releases at *
  -- The version stands before the last one of the past and again after it.
  obtain ⟨start, rfl⟩ := List.getLast?_eq_some_iff.mp lastOfPast
  have front : [version, other].Sublist (start ++ [other]) := by
    have member : version ∈ start :=
      (List.mem_append.mp earlier).resolve_right fun isLast =>
        different (List.mem_singleton.mp isLast).symm
    exact (List.singleton_sublist.mpr member).append (.refl [other])
  have back : [version].Sublist releases := by
    rcases List.eq_nil_or_concat' releases with rfl | ⟨others, last, rfl⟩
    · rw [List.append_nil, lastOfPast] at lastOfAll
      exact absurd (Option.some.inj lastOfAll) different
    · rw [← List.append_assoc, List.getLast?_concat] at lastOfAll
      simp [Option.some.inj lastOfAll]
  exact stable version other different (front.append back)

/-- A version that is known stays known as long as no change is noticed. -/
theorem Undisturbed.knownVersion_eq {first known : Text}
    {earlier after : List (Event κ α)} {key : κ}
    (undisturbed : Undisturbed first earlier key after)
    (isKnown : (momentAfter first earlier).cache.knownVersion = some known) :
    (momentAfter first (earlier ++ after)).cache.knownVersion =
      some known := by
  induction after using List.reverseRecOn with
  | nil =>
      rwa [List.append_nil]
  | append_singleton after event inductionHypothesis =>
      obtain ⟨before, -, notNoticed⟩ := undisturbed_concat_iff.mp undisturbed
      have stillKnown := inductionHypothesis before
      rw [← List.append_assoc, momentAfter_concat]
      refine knownVersion_step_of_known stillKnown ?_
      rintro looked rfl
      by_contra different
      exact notNoticed ⟨known, stillKnown, Ne.symm different⟩

/-- A version that is known stays known as long as it is reported. -/
theorem knownVersion_eq_of_reported_eq {first known : Text}
    {earlier after : List (Event κ α)}
    (isKnown : (momentAfter first earlier).cache.knownVersion = some known)
    (same : ∀ between rest, after = between ++ rest →
      (momentAfter first (earlier ++ between)).reported = known) :
    (momentAfter first (earlier ++ after)).cache.knownVersion =
      some known := by
  induction after using List.reverseRecOn with
  | nil =>
      rwa [List.append_nil]
  | append_singleton after event inductionHypothesis =>
      have stillKnown := inductionHypothesis fun between rest split =>
        same between (rest ++ [event]) (by simp [split])
      rw [← List.append_assoc, momentAfter_concat]
      exact knownVersion_step_of_known stillKnown fun _ _ =>
        same after [event] rfl

theorem knownVersion_eq_none {first : Text} {past : List (Event κ α)}
    (quiet : ∀ event ∈ past, ¬ event.MayObserve) :
    (momentAfter first past).cache.knownVersion = none := by
  induction past using List.reverseRecOn with
  | nil =>
      rfl
  | append_singleton past event inductionHypothesis =>
      rw [momentAfter_concat, knownVersion_step _ (quiet event (by simp))]
      exact inductionHypothesis fun other member =>
        quiet other (List.mem_append_left _ member)

/-- After an event at which the cache takes notice of the version, that version
is the known one. -/
theorem Event.Observes.knownVersion_eq {first : Text}
    {earlier : List (Event κ α)} {event : Event κ α}
    (observes : event.Observes earlier) :
    (momentAfter first (earlier ++ [event])).cache.knownVersion =
      some (momentAfter first earlier).reported := by
  rw [momentAfter_concat]
  cases event with
  | get key =>
      exact knownVersion_step_get _ _
  | set key value =>
      simp [Moment.step, ReleaseCache.set, knownVersion_eq_none observes]
  | delete key =>
      exact observes.elim
  | clear =>
      exact observes.elim
  | release version =>
      exact observes.elim

/-! ## Values of one release -/

/-- A value that a look-up finds was stored under the version that is reported
at the look-up. -/
theorem Undisturbed.reported_eq {first : Text}
    {before after : List (Event κ α)} {key : κ} {value : α}
    (stable : NeverReturns (versions first (before ++ .set key value :: after)))
    (undisturbed : Undisturbed first (before ++ [.set key value]) key
      (after ++ [.get key])) :
    (momentAfter first before).reported =
      (momentAfter first (before ++ .set key value :: after)).reported := by
  set stored := before ++ [Event.set key value]
  have shape : before ++ .set key value :: after = stored ++ after := by
    simp [stored]
  rw [shape] at stable ⊢
  obtain ⟨known, isKnown⟩ :
      ∃ known, (momentAfter first stored).cache.knownVersion = some known := by
    rw [momentAfter_concat]
    exact ⟨_, rfl⟩
  -- The version known at the store is the one that the look-up takes notice of.
  have reported : (momentAfter first (stored ++ after)).reported = known := by
    have atEnd := undisturbed.knownVersion_eq isKnown
    rw [← List.append_assoc, momentAfter_concat, knownVersion_step_get] at atEnd
    exact Option.some.inj atEnd
  have atStore : (momentAfter first stored).reported = known :=
    stable.reported_eq (mem_versions_of_knownVersion isKnown) reported
  rw [momentAfter_concat] at atStore
  exact atStore.trans reported.symm

/-- Nothing disturbs a value after the reported version has been noticed and
until it changes, except what replaces the value. -/
theorem undisturbed_of_observed {first : Text}
    {earlier noticed after : List (Event κ α)} {event : Event κ α} {key : κ}
    (stable : NeverReturns
      (versions first (earlier ++ event :: noticed ++ after)))
    (observes : event.Observes earlier)
    (same : (momentAfter first earlier).reported =
      (momentAfter first (earlier ++ event :: noticed ++ after)).reported)
    (kept : ∀ event ∈ after, ¬ event.Replaces key) :
    Undisturbed first (earlier ++ event :: noticed) key
      (after ++ [.get key]) := by
  set version := (momentAfter first earlier).reported
  have reported (between rest : List (Event κ α))
      (split : noticed ++ after = between ++ rest) :
      (momentAfter first (earlier ++ [event] ++ between)).reported =
        version := by
    have shape : earlier ++ event :: noticed ++ after =
        earlier ++ [event] ++ between ++ rest := by
      simp [split]
    rw [shape] at stable same
    refine stable.reported_eq ?_ same.symm
    rw [List.append_assoc, versions_append]
    exact List.mem_append_left _ (reported_mem_versions first earlier)
  intro between inner rest split
  refine ⟨?_, ?_⟩
  · have member : inner ∈ after ++ [.get key] := by
      rw [split]
      simp
    rcases List.mem_append.mp member with isKept | isLast
    · exact kept inner isKept
    · rw [List.mem_singleton.mp isLast]
      exact id
  · obtain ⟨others, rfl⟩ : between <+: after := by
      have front : between <+: after ++ [.get key] := ⟨inner :: rest, split.symm⟩
      refine (List.prefix_concat_iff.mp front).resolve_left fun whole => ?_
      rw [whole] at split
      simp at split
    have nowReported := reported (noticed ++ between) others (by simp)
    have nowKnown :
        (momentAfter first (earlier ++ [event] ++ (noticed ++ between))
          ).cache.knownVersion = some version :=
      knownVersion_eq_of_reported_eq observes.knownVersion_eq
        fun middle tail parts =>
          reported middle (tail ++ others) (by simp [← List.append_assoc, parts])
    have shape : earlier ++ event :: noticed ++ between =
        earlier ++ [event] ++ (noticed ++ between) := by
      simp
    rw [shape]
    exact not_noticesChange (nowKnown.trans (congrArg some nowReported.symm))

/-- When the source never comes back to a version it has left, a look-up gives
the value of the latest store under its key, if nothing has dropped it and the
store was under the version reported at the look-up; and it does give the value
if that version had been noticed at the store or before. -/
theorem found?_within_release (first : Text) (past : List (Event κ α))
    (key : κ) (stable : NeverReturns (versions first past)) :
    (∀ value, found? first past key = some value →
      ∃ before after,
        past = before ++ .set key value :: after ∧
          Undisturbed first (before ++ [.set key value]) key
            (after ++ [.get key]) ∧
          (momentAfter first before).reported =
            (momentAfter first past).reported) ∧
      ∀ before value after, past = before ++ .set key value :: after →
        (∀ event ∈ after, ¬ event.Replaces key) →
        (momentAfter first before).reported =
          (momentAfter first past).reported →
        (∃ earlier event noticed,
          before ++ [.set key value] = earlier ++ event :: noticed ∧
            event.Observes earlier ∧
            (momentAfter first earlier).reported =
              (momentAfter first past).reported) →
        found? first past key = some value := by
  constructor
  · intro value found
    have stores := found?_eq_some_iff.mp found
    rw [stores_concat_iff] at stores
    obtain ⟨⟨before, after, rfl, undisturbed⟩, kept⟩ :=
      stores.resolve_left (by simp)
    have whole : Undisturbed first (before ++ [.set key value]) key
        (after ++ [.get key]) :=
      undisturbed_concat_iff.mpr ⟨undisturbed, by simpa using kept⟩
    exact ⟨before, after, rfl, whole, whole.reported_eq stable⟩
  · rintro before value after rfl kept - ⟨earlier, event, noticed, split,
      observes, same⟩
    have shape : before ++ .set key value :: after =
        earlier ++ event :: noticed ++ after := by
      rw [← split]
      simp
    rw [found?_eq_some_iff]
    refine ⟨before, after ++ [.get key], by simp, ?_⟩
    rw [split]
    rw [shape] at stable same
    exact undisturbed_of_observed stable observes same kept

/-- A value of the old release is dropped by a look-up after the new one; what is
stored then is found, and was stored under the new release. -/
theorem found?_after_release :
    let before : List (Event Nat Nat) :=
      [.set 0 1, .release ['2'], .get 0]
    let after : List (Event Nat Nat) :=
      [.release ['2'], .set 7 3, .delete 5, .get 1]
    let past := before ++ .set 0 2 :: after
    NeverReturns (versions ['1'] past) ∧
      found? ['1'] past 0 = some 2 ∧
      ∃ start rest,
        past = start ++ .set 0 2 :: rest ∧
          Undisturbed ['1'] (start ++ [.set 0 2]) 0 (rest ++ [.get 0]) ∧
          (momentAfter ['1'] start).reported =
            (momentAfter ['1'] past).reported := by
  intro before after past
  have stable : NeverReturns (versions ['1'] past) := by
    intro version other different twice
    -- All three versions would have to be those of the history.
    have whole : [version, other, version] = [['1'], ['2'], ['2']] :=
      twice.eq_of_length rfl
    simp only [List.cons.injEq, and_true] at whole
    exact different (whole.2.1.trans whole.2.2.symm)
  have present : found? ['1'] past 0 = some 2 := by
    refine (found?_within_release ['1'] past 0 stable).2 before 2 after rfl
      ?_ rfl ⟨[.set 0 1, .release ['2']], .get 0, [.set 0 2], rfl, trivial, rfl⟩
    intro event member
    simp only [after, List.mem_cons, List.not_mem_nil, or_false] at member
    rcases member with rfl | rfl | rfl | rfl <;> simp [Event.Replaces]
  exact ⟨stable, present,
    (found?_within_release ['1'] past 0 stable).1 2 present⟩

end ComponentDocs.ReleaseCache
