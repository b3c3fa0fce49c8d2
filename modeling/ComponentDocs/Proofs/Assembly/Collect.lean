import ComponentDocs.Component.Assembly
import Mathlib.Data.List.Nodup
import Mathlib.Data.List.Induction

/-!
Collecting the rows of a section: each name stands once, in the place of its
first row and with the values of its last row.
-/

namespace ComponentDocs.Assembly

variable {α : Type} (name : α → Text)

/-! ## The last items -/

/-- The last item of a name. -/
def lastNamed? (items : List α) (wanted : Text) : Option α :=
  items.reverse.find? fun item => name item = wanted

/-- The last item of each name, in the order of the first items. -/
def latest (items : List α) : List α :=
  (items.map name).eraseDups.filterMap (lastNamed? name items)

theorem lastNamed?_concat (items : List α) (item : α) (wanted : Text) :
    lastNamed? name (items ++ [item]) wanted =
      if name item = wanted then some item
      else lastNamed? name items wanted := by
  rw [lastNamed?, List.reverse_concat, List.find?_cons]
  by_cases same : name item = wanted
  · simp [same]
  · simp [same, lastNamed?]

theorem exists_lastNamed? {items : List α} {wanted : Text}
    (member : wanted ∈ items.map name) :
    ∃ item, lastNamed? name items wanted = some item ∧ name item = wanted := by
  obtain ⟨item, itemMember, equality⟩ := List.mem_map.mp member
  have found :
      (items.reverse.find? fun item => name item = wanted).isSome := by
    rw [List.find?_isSome]
    exact ⟨item, List.mem_reverse.mpr itemMember, by simpa using equality⟩
  obtain ⟨last, isLast⟩ := Option.isSome_iff_exists.mp found
  exact ⟨last, isLast, by simpa using List.find?_some isLast⟩

theorem map_name_latest (items : List α) :
    (latest name items).map name = (items.map name).eraseDups := by
  have kept (names : List Text) (known : ∀ wanted ∈ names,
      wanted ∈ items.map name) :
      (names.filterMap (lastNamed? name items)).map name = names := by
    induction names with
    | nil =>
        rfl
    | cons head tail inductionHypothesis =>
        obtain ⟨item, isLast, itemName⟩ :=
          exists_lastNamed? name (known head List.mem_cons_self)
        rw [List.filterMap_cons, isLast, List.map_cons, itemName,
          inductionHypothesis fun wanted member =>
            known wanted (List.mem_cons_of_mem _ member)]
  exact kept _ fun _ member => List.mem_eraseDups.mp member

/-! ## Distinct names -/

theorem eraseDups_concat (names : List Text) (last : Text) :
    (names ++ [last]).eraseDups =
      names.eraseDups ++ if last ∈ names then [] else [last] := by
  rw [List.eraseDups_append]
  by_cases member : last ∈ names
  · simp [List.removeAll, member]
  · simp [List.removeAll, member, List.eraseDups_cons]

theorem nodup_eraseDups (names : List Text) : names.eraseDups.Nodup := by
  induction names using List.reverseRecOn with
  | nil =>
      exact List.nodup_nil
  | append_singleton names last inductionHypothesis =>
      rw [eraseDups_concat]
      split
      · rwa [List.append_nil]
      · rename_i absent
        refine List.nodup_append.mpr
          ⟨inductionHypothesis, List.nodup_singleton last, ?_⟩
        rintro earlier member _ isLast rfl
        rw [List.mem_singleton] at isLast
        exact absent (isLast ▸ List.mem_eraseDups.mp member)

/-! ## Putting items -/

/-- Putting an item into the items of distinct names changes the item of its
own name only, or adds it at the end. -/
theorem upsert_filterMap {names : List Text} {itemOf? : Text → Option α}
    (item : α) (distinct : names.Nodup)
    (named : ∀ wanted ∈ names,
      ∃ found, itemOf? wanted = some found ∧ name found = wanted) :
    upsert name item (names.filterMap itemOf?) =
      names.filterMap (fun wanted =>
          if name item = wanted then some item else itemOf? wanted) ++
        if name item ∈ names then [] else [item] := by
  induction names with
  | nil =>
      rfl
  | cons head tail inductionHypothesis =>
      obtain ⟨found, itemOfHead, foundName⟩ := named head List.mem_cons_self
      obtain ⟨headAbsent, tailDistinct⟩ := List.nodup_cons.mp distinct
      by_cases same : name item = head
      · have tailKept :
            tail.filterMap (fun wanted =>
                if name item = wanted then some item else itemOf? wanted) =
              tail.filterMap itemOf? := by
          apply List.filterMap_congr
          intro wanted member
          have different : name item ≠ wanted := by
            rintro rfl
            exact headAbsent (same ▸ member)
          rw [if_neg different]
        rw [same] at tailKept
        simp [upsert, itemOfHead, foundName, same, tailKept]
      · have tailDone := inductionHypothesis tailDistinct fun wanted member =>
          named wanted (List.mem_cons_of_mem _ member)
        simp [upsert, itemOfHead, foundName, same, Ne.symm same, tailDone]

theorem latest_concat (items : List α) (item : α) :
    latest name (items ++ [item]) = upsert name item (latest name items) := by
  have named (wanted : Text) (member : wanted ∈ (items.map name).eraseDups) :
      ∃ found, lastNamed? name items wanted = some found ∧
        name found = wanted :=
    exists_lastNamed? name (List.mem_eraseDups.mp member)
  have ofOwnName :
      lastNamed? name (items ++ [item]) (name item) = some item := by
    rw [lastNamed?_concat, if_pos rfl]
  rw [latest, latest, upsert_filterMap name item (nodup_eraseDups _) named,
    List.map_append, List.map_singleton, eraseDups_concat,
    List.filterMap_append]
  congr 1
  · apply List.filterMap_congr
    intro wanted _
    exact lastNamed?_concat name items item wanted
  · by_cases member : name item ∈ items.map name
    · rw [if_pos member, if_pos (List.mem_eraseDups.mpr member)]
      rfl
    · rw [if_neg member, if_neg (mt List.mem_eraseDups.mp member)]
      simp [ofOwnName]

/-- An item that is kept is the last one of its name. -/
theorem exists_of_mem_latest {items : List α} {item : α}
    (member : item ∈ latest name items) :
    ∃ before after, items = before ++ item :: after ∧
      ∀ later ∈ after, name later ≠ name item := by
  obtain ⟨wanted, -, isLast⟩ := List.mem_filterMap.mp member
  obtain ⟨isNamed, after, before, split, others⟩ :=
    List.find?_eq_some_iff_append.mp isLast
  have named : name item = wanted := by simpa using isNamed
  refine ⟨before.reverse, after.reverse, ?_, ?_⟩
  · rw [← List.reverse_inj, split]
    simp
  · intro later laterMember
    simpa [named] using others later (List.mem_reverse.mp laterMember)

theorem mem_of_mem_latest {items : List α} {item : α}
    (member : item ∈ latest name items) : item ∈ items := by
  obtain ⟨before, after, rfl, -⟩ := exists_of_mem_latest name member
  exact List.mem_append_right _ List.mem_cons_self

/-- Looking a name up among the kept items finds the last item of that name. -/
theorem find?_latest (items : List α) (wanted : Text) :
    (latest name items).find? (fun item => name item = wanted) =
      lastNamed? name items wanted := by
  cases found : (latest name items).find? fun item => name item = wanted with
  | some item =>
      obtain ⟨before, after, rfl, others⟩ :=
        exists_of_mem_latest name (List.mem_of_find?_eq_some found)
      have named : name item = wanted := by
        simpa using List.find?_some found
      refine (List.find?_eq_some_iff_append.mpr
        ⟨by simpa using named, after.reverse, before.reverse, by simp, ?_⟩).symm
      intro later member
      simpa [named] using others later (List.mem_reverse.mp member)
  | none =>
      cases isLast : lastNamed? name items wanted with
      | none => rfl
      | some item =>
          have named : name item = wanted := by
            simpa using List.find?_some isLast
          have listed : wanted ∈ (latest name items).map name := by
            rw [map_name_latest, List.mem_eraseDups, ← named]
            exact List.mem_map_of_mem
              (List.mem_reverse.mp (List.mem_of_find?_eq_some isLast))
          obtain ⟨other, member, isNamed⟩ := List.mem_map.mp listed
          have absent := List.find?_eq_none.mp found other member
          exact absurd isNamed (by simpa using absent)

theorem lastNamed?_of_last (before : List α) {after : List α} {item : α}
    (last : ∀ later ∈ after, name later ≠ name item) :
    lastNamed? name (before ++ item :: after) (name item) = some item := by
  rw [lastNamed?, List.find?_eq_some_iff_append]
  refine ⟨by simp, after.reverse, before.reverse, by simp, ?_⟩
  intro later member
  simpa using last later (List.mem_reverse.mp member)

/-- The last item of a name is kept, and no other one of the name. -/
theorem mem_latest_of_last (before : List α) {after : List α} {item : α}
    (last : ∀ later ∈ after, name later ≠ name item) :
    item ∈ latest name (before ++ item :: after) ∧
      ∀ kept ∈ latest name (before ++ item :: after),
        name kept = name item → kept = item := by
  have isLast := lastNamed?_of_last name before last
  constructor
  · rw [← find?_latest] at isLast
    exact List.mem_of_find?_eq_some isLast
  · intro kept member same
    obtain ⟨wanted, -, found⟩ := List.mem_filterMap.mp member
    have named : name kept = wanted := by
      simpa using List.find?_some found
    rw [← named, same, isLast] at found
    exact (Option.some.inj found).symm

theorem length_upsert (item : α) (items : List α) :
    (upsert name item items).length =
      items.length + if name item ∈ items.map name then 0 else 1 := by
  induction items with
  | nil =>
      rfl
  | cons first rest inductionHypothesis =>
      by_cases same : name first = name item
      · simp [upsert, same]
      · have different : name item ≠ name first := Ne.symm same
        simp only [upsert, same, if_false, List.length_cons,
          inductionHypothesis, List.map_cons, List.mem_cons, different,
          false_or]
        omega

/-- Collecting rows keeps the last entity of each name, in the order of the
first ones. -/
theorem collect_eq_latest (entity? : Page.Row → Option α)
    (rows : List Page.Row) :
    collect name entity? rows = latest name (rows.filterMap entity?) := by
  rw [collect]
  generalize rows.filterMap entity? = items
  -- Items are put one after another, each behind those before it.
  induction items using List.reverseRecOn with
  | nil =>
      rfl
  | append_singleton items item inductionHypothesis =>
      rw [List.foldl_concat, inductionHypothesis, latest_concat]

end ComponentDocs.Assembly
