import ComponentDocs.Build.Basic
import ComponentDocs.Proofs.Store.Commit

/-!
A build only reads until it has its corpus, which is then saved; so a build
that is kept commits its corpus as a save does.
-/

namespace ComponentDocs

open FileTask

theorem ReleaseSource.writesNothing_current (source : ReleaseSource) :
    WritesNothing source.current := by
  cases source with
  | fixed version => exact .pure version
  | manifest path => exact (WritesNothing.read path).bind fun _ => .pure _

namespace Build

theorem writesNothing_readPages (options : ParseOptions) (root : Text)
    (places : List (List Text)) :
    WritesNothing (readPages options root places) := by
  induction places with
  | nil =>
      exact .pure []
  | cons place rest inductionHypothesis =>
      refine (WritesNothing.read _).bind fun _ => ?_
      exact inductionHypothesis.bind fun _ => .pure _

theorem writesNothing_meetAll (root : Text) (here names : List Text)
    (walk : Walk) : WritesNothing (Walk.meetAll root here walk names) := by
  induction names generalizing walk with
  | nil =>
      exact .pure walk
  | cons name rest inductionHypothesis =>
      exact (WritesNothing.isDirectory _).bind fun _ => inductionHypothesis _

theorem writesNothing_finish (root : Text) (fuel : Nat) (walk : Walk) :
    WritesNothing (Walk.finish root fuel walk) := by
  induction fuel generalizing walk with
  | zero =>
      exact .pure _
  | succ fuel inductionHypothesis =>
      obtain ⟨pending, pages⟩ := walk
      cases pending with
      | nil =>
          exact .pure _
      | cons here pending =>
          refine (WritesNothing.list _).bind fun outcome => ?_
          match outcome with
          | .error failure => exact .pure _
          | .ok names =>
              exact (writesNothing_meetAll root here names _).bind fun next =>
                inductionHypothesis next

theorem writesNothing_pagePlaces (root : Text) :
    WritesNothing (pagePlaces root) := by
  refine WritesNothing.directoryBound.bind fun bound => ?_
  refine (writesNothing_finish root bound _).bind fun outcome => ?_
  match outcome with
  | .error failure => exact .pure _
  | .ok pages => exact .pure _

theorem writesNothing_corpus (options : ParseOptions) (root : Text)
    (source : ReleaseSource) (now : Instant) :
    WritesNothing (corpus options root source now) := by
  refine (WritesNothing.isDirectory root).bind fun isDirectory => ?_
  cases isDirectory with
  | false => exact .pure _
  | true =>
      refine (writesNothing_pagePlaces root).bind fun outcome => ?_
      match outcome with
      | .error failure => exact .pure _
      | .ok places =>
          refine (writesNothing_readPages options root _).bind fun _ => ?_
          exact source.writesNothing_current.bind fun _ => .pure _

theorem replacesWhole_save (platform : Platform) (options : ParseOptions)
    (root : Text) (source : ReleaseSource) (now : Instant) (store : Store) :
    store.ReplacesWhole (platform = .windows)
      (fun built => Store.corpusText built.1)
      (save platform options root source now store) := by
  have onlyReads := writesNothing_corpus options root source now
  refine Store.ReplacesWhole.after_writesNothing onlyReads fun outcome => ?_
  match outcome with
  | .error failure => exact .error _ failure
  | .ok (built, report) =>
      exact (store.replacesWhole_save platform built).then_pure
        (fun _ => (built, report)) (fun _ => rfl) (fun _ => rfl) fun _ => rfl

end Build

end ComponentDocs
