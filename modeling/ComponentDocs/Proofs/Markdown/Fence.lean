import ComponentDocs.Proofs.Markdown.Flat

/-!
Code between fences of back-ticks: where the fence can open, no line up to the
closing fence holds a heading, and nothing is open below it.
-/

namespace ComponentDocs.Markdown

/-! ## Widths of items -/

/-- A line without indentation does not continue the container by it. -/
def Container.IsWide : Container → Prop
  | quote => True
  | item width _ => 0 < width

theorem Marker.listMarker?_pos {inParagraph : Bool} {text : Text}
    {length : Nat} (marked : listMarker? inParagraph text = some length) :
    0 < length := by
  unfold listMarker? at marked
  split at marked
  · cases marked
  · split at marked
    · rw [Option.ite_none_right_eq_some, Option.some.injEq] at marked
      omega
    · dsimp only at marked
      split at marked
      · rw [Option.ite_none_right_eq_some, Option.some.injEq] at marked
        omega
      · cases marked

namespace Container

theorem IsWide.continue? {cursor rest : Cursor}
    {container continued : Container} (wide : container.IsWide)
    (continues : container.continue? cursor = some (continued, rest)) :
    continued.IsWide := by
  cases container with
  | quote =>
      rw [continue?_quote, Option.ite_none_right_eq_some, Option.some.injEq,
        Prod.mk.injEq] at continues
      rw [← continues.2.1]
      exact wide
  | item width hasContent =>
      rw [continue?_item] at continues
      split at continues
      all_goals
        rw [Option.ite_none_right_eq_some, Option.some.injEq,
          Prod.mk.injEq] at continues
        rw [← continues.2.1]
        exact wide

theorem isWide_continueAll (cursor : Cursor) {containers : List Container}
    (wide : ∀ container ∈ containers, container.IsWide) :
    ∀ container ∈ (continueAll cursor containers).1, container.IsWide := by
  induction containers generalizing cursor with
  | nil =>
      simp [continueAll]
  | cons container inner inductionHypothesis =>
      obtain ⟨wideFirst, wideInner⟩ := List.forall_mem_cons.mp wide
      rw [continueAll]
      split
      · rename_i continued rest continues
        exact List.forall_mem_cons.mpr
          ⟨wideFirst.continue? continues,
            inductionHypothesis rest wideInner⟩
      · simp

theorem isWide_openItem (cursor : Cursor) {marker : Nat}
    (positive : 0 < marker) : (openItem cursor marker).1.IsWide := by
  unfold openItem
  dsimp only
  split
  · exact Nat.succ_pos _
  · split
    · exact Nat.succ_pos _
    · exact Nat.add_pos_left (Nat.add_pos_right _ positive) _

end Container

theorem isWide_openBlocks (line : Line) (fuel : Nat) (above : Above)
    (cursor : Cursor) :
    ∀ container ∈ (openBlocks line fuel above cursor).1,
      container.IsWide := by
  -- Only a quote and an item open containers, and more of them below nothing.
  induction fuel generalizing above cursor with
  | zero =>
      simp [openBlocks]
  | succ fuel inductionHypothesis =>
      unfold openBlocks
      dsimp only
      split
      · simp
      split
      · split <;> simp
      split
      · exact List.forall_mem_cons.mpr ⟨trivial, inductionHypothesis _ _⟩
      split
      · simp
      split
      · simp
      split
      · simp
      split
      · simp
      split
      · rename_i marker marked
        exact List.forall_mem_cons.mpr
          ⟨Container.isWide_openItem cursor (Marker.listMarker?_pos marked),
            inductionHypothesis _ _⟩
      · split <;> simp

namespace OpenBlocks

/-- Every open item is continued by indented lines only. -/
def IsWide (blocks : OpenBlocks) : Prop :=
  ∀ container ∈ blocks.containers, container.IsWide

theorem isWide_initial : initial.IsWide := by
  simp [IsWide, initial]

variable {blocks : OpenBlocks}

theorem IsWide.openNew (wide : blocks.IsWide) (line : Line)
    {continued : List Container} (all : Bool) (cursor : Cursor)
    (wideContinued : ∀ container ∈ continued, container.IsWide) :
    (blocks.openNew line continued all cursor).1.IsWide := by
  have opened := isWide_openBlocks line (cursor.rest.length + 1)
    (blocks.leaf.above all cursor) cursor
  have both := List.forall_mem_append.mpr ⟨wideContinued, opened⟩
  unfold OpenBlocks.openNew
  dsimp only
  split
  · exact both
  · exact both
  · split
    · exact both
    · split
      · unfold addText
        split
        · exact wideContinued
        · exact wide
        · exact wideContinued
        · exact wideContinued
      · exact both

theorem IsWide.next (wide : blocks.IsWide) (line : Line) :
    (blocks.next line).1.IsWide := by
  have continued := Container.isWide_continueAll (Cursor.ofLine line) wide
  unfold OpenBlocks.next
  dsimp only
  split
  · exact continued
  · exact wide.openNew line _ _ continued

theorem IsWide.after (wide : blocks.IsWide) (lines : List Line) :
    (blocks.after lines).IsWide := by
  induction lines generalizing blocks with
  | nil =>
      exact wide
  | cons line rest inductionHypothesis =>
      exact inductionHypothesis (wide.next line)

end OpenBlocks

/-! ## Opening and closing -/

/-- The back-tick, of which fences are made. -/
def tick : Char := '\x60'

/-- A line that opens code: back-ticks and what is said of the code. -/
def openingFence (length : Nat) (info : Text) : Text :=
  List.replicate length tick ++ info

theorem Marker.run_openingFence (length : Nat) {info : Text}
    (absent : tick ∉ info) : run tick (openingFence length info) = length := by
  have stops : info.takeWhile (· == tick) = [] := by
    cases info with
    | nil =>
        rfl
    | cons first rest =>
        have other : ¬ first = tick := fun same => absent (by simp [same])
        simp [other]
  rw [run, openingFence, List.takeWhile_append_of_pos (by simp), stops]
  simp

theorem Marker.fence?_openingFence {length : Nat} (long : 3 ≤ length)
    {info : Text} (absent : tick ∉ info) :
    fence? (openingFence length info) = some (tick, length) := by
  have runs := run_openingFence length absent
  have rest : (openingFence length info).drop length = info :=
    List.drop_left' List.length_replicate
  have noTick : info.contains tick = false := by
    simpa using absent
  rw [tick] at runs noTick
  unfold fence?
  dsimp only
  rw [runs, rest, noTick, if_pos long, if_neg Bool.false_ne_true]
  rfl

section Opening

variable {length : Nat} (long : 3 ≤ length) {info : Text}
variable (absent : tick ∉ info)

include long

theorem exists_openingFence_eq_cons (info : Text) :
    ∃ rest, openingFence length info = tick :: rest := by
  obtain ⟨fewer, rfl⟩ := Nat.exists_eq_add_of_le' long
  exact ⟨List.replicate (fewer + 2) tick ++ info, rfl⟩

include absent in
theorem openBlocks_of_openingFence (line : Line) (fuel : Nat)
    (above : Above) :
    openBlocks line (fuel + 1) above ⟨0, openingFence length info⟩ =
      ([], .leaf (.fencedCode tick length)) := by
  have opens := Marker.fence?_openingFence long absent
  obtain ⟨rest, shape⟩ := exists_openingFence_eq_cons long info
  rw [shape] at opens ⊢
  have visible : Cursor.visible ⟨0, tick :: rest⟩ = tick :: rest := rfl
  have indent : Cursor.indent ⟨0, tick :: rest⟩ = 0 := rfl
  have notBlank : Cursor.isBlank ⟨0, tick :: rest⟩ = false := rfl
  have noQuote : Container.startsQuote ⟨0, tick :: rest⟩ = false := rfl
  have noHashes : hashHeading? line ⟨0, tick :: rest⟩ = none := rfl
  have leaf :
      openLeaf? above ⟨0, tick :: rest⟩ =
        some (.fencedCode tick length) := by
    rw [openLeaf?, visible, indent, if_pos (by decide), opens]
  rw [openBlocks]
  dsimp only
  rw [notBlank, indent, noQuote, noHashes, leaf, if_neg Bool.false_ne_true,
    if_neg (by decide), if_neg Bool.false_ne_true]

/-- No container is continued by a fence at the start of a line. -/
theorem continueAll_openingFence {containers : List Container}
    (wide : ∀ container ∈ containers, container.IsWide) :
    Container.continueAll ⟨0, openingFence length info⟩ containers =
      ([], containers.isEmpty, ⟨0, openingFence length info⟩) := by
  obtain ⟨rest, shape⟩ := exists_openingFence_eq_cons long info
  rw [shape]
  cases containers with
  | nil =>
      rfl
  | cons container inner =>
      have stops :
          container.continue? ⟨0, tick :: rest⟩ = none := by
        cases container with
        | quote => rfl
        | item width hasContent =>
            have positive : 0 < width := wide _ List.mem_cons_self
            have indent : Cursor.indent ⟨0, tick :: rest⟩ = 0 := rfl
            rw [Container.continue?_item, indent,
              if_neg (Nat.not_le.mpr positive)]
            rfl
      rw [Container.continueAll, stops]
      rfl

end Opening

/-- Whether a leaf block ends where a fence can open. -/
def Leaf.endsAtFence : Leaf → Bool
  | fencedCode _ _ => false
  | html _ => false
  | _ => true

/-- Whether a leaf block ends at a blank line with a fence below it. -/
def Leaf.takesFence : Leaf → Bool
  | fencedCode _ _ => false
  | html block => block.endsAtBlank
  | _ => true

theorem Leaf.continue?_of_endsAtFence {leaf : Leaf} {cursor : Cursor}
    (ends : leaf.endsAtFence = true) (visible : cursor.isBlank = false)
    (near : cursor.indent < 4) : leaf.continue? cursor = Option.none := by
  cases leaf with
  | fencedCode mark length => cases ends
  | html block => cases ends
  | indentedCode =>
      rw [continue?, visible, if_neg]
      simpa using near
  | none => rfl
  | paragraph lines => rfl
  | table => rfl

theorem Leaf.endsAtFence_of_continue? {leaf continued : Leaf}
    (takes : leaf.takesFence = true)
    (continues : leaf.continue? ⟨0, []⟩ = some continued) :
    continued.endsAtFence = true := by
  cases leaf with
  | fencedCode mark length => cases takes
  | html block =>
      have ends : block.endsAtBlank = true := takes
      rw [continue?, ends] at continues
      injection continues with same
      rw [← same]
      rfl
  | indentedCode =>
      injection continues with same
      rw [← same]
      rfl
  | none => cases continues
  | paragraph lines => cases continues
  | table => cases continues

namespace OpenBlocks

variable {blocks : OpenBlocks}

/-- A fence can open after a blank line: outside containers there is neither
code between fences nor HTML that such a line does not end. -/
def TakesFence (blocks : OpenBlocks) : Prop :=
  blocks.containers = [] → blocks.leaf.takesFence = true

/-- A fence can open on the next line. -/
def EndsAtFence (blocks : OpenBlocks) : Prop :=
  blocks.containers = [] → blocks.leaf.endsAtFence = true

instance (blocks : OpenBlocks) : Decidable blocks.TakesFence :=
  inferInstanceAs (Decidable (_ → _))

theorem openNew_of_blank (blocks : OpenBlocks) (line : Line)
    (continued : List Container) (all : Bool) {cursor : Cursor}
    (blank : cursor.isBlank = true) :
    blocks.openNew line continued all cursor =
      (⟨continued, .none⟩, none) := by
  rw [openNew, openBlocks]
  simp [blank]

theorem TakesFence.next_of_empty (takes : blocks.TakesFence) {line : Line}
    (empty : line.content = []) : (blocks.next line).1.EndsAtFence := by
  have start : Cursor.ofLine line = ⟨0, []⟩ := by
    rw [Cursor.ofLine, empty]
  have within :=
    Container.visible_continueAll_ofLine line blocks.containers
  rw [empty, List.suffix_nil, start] at within
  rw [next, start]
  cases opened : blocks.containers with
  | nil =>
      rw [Container.continueAll]
      dsimp only
      rw [if_pos rfl]
      cases continues : blocks.leaf.continue? ⟨0, []⟩ with
      | some leaf =>
          exact fun _ => Leaf.endsAtFence_of_continue? (takes opened) continues
      | none =>
          rw [openNew_of_blank _ _ _ _ rfl]
          exact fun _ => rfl
  | cons container inner =>
      rw [opened] at within
      rw [Container.continueAll] at within ⊢
      cases continues : container.continue? ⟨0, []⟩ with
      | some result =>
          -- The container stays open, whatever becomes of the others.
          rw [continues] at within
          dsimp only at within ⊢
          split
          · exact fun none => absurd none (List.cons_ne_nil _ _)
          · rw [openNew_of_blank _ _ _ _ (by rw [Cursor.isBlank, within]; rfl)]
            exact fun none => absurd none (List.cons_ne_nil _ _)
      | none =>
          dsimp only
          rw [if_neg Bool.false_ne_true, openNew_of_blank _ _ _ _ rfl]
          exact fun _ => rfl

/-- A fence opens code outside all containers. -/
theorem EndsAtFence.next_of_openingFence (ends : blocks.EndsAtFence)
    (wide : blocks.IsWide) {line : Line} {length : Nat} (long : 3 ≤ length)
    {info : Text} (absent : tick ∉ info)
    (content : line.content = openingFence length info) :
    blocks.next line = (⟨[], .fencedCode tick length⟩, none) := by
  have start : Cursor.ofLine line = ⟨0, openingFence length info⟩ := by
    rw [Cursor.ofLine, content]
  obtain ⟨rest, shape⟩ := exists_openingFence_eq_cons long info
  rw [next, start, continueAll_openingFence long wide]
  dsimp only
  have stops :
      (if blocks.containers.isEmpty = true then
        blocks.leaf.continue? ⟨0, openingFence length info⟩ else none) =
          none := by
    split
    · rename_i outside
      rw [shape]
      exact Leaf.continue?_of_endsAtFence
        (ends (List.isEmpty_iff.mp outside)) rfl (Nat.zero_lt_succ 3)
    · rfl
  rw [stops, openNew, openBlocks_of_openingFence long absent]
  rfl

/-- A line without back-ticks is code. -/
theorem next_of_code {length : Nat} (positive : 0 < length) {line : Line}
    (absent : tick ∉ line.content) :
    next ⟨[], .fencedCode tick length⟩ line =
      (⟨[], .fencedCode tick length⟩, none) := by
  have within := Cursor.visible_ofLine line
  have noTick : Marker.run tick (Cursor.ofLine line).visible = 0 := by
    by_contra positive
    obtain ⟨rest, shape, -⟩ := Marker.exists_of_run positive
    exact absent (within.subset (by simp [shape]))
  have open_ : Marker.closesFence tick length
      (Cursor.ofLine line).visible = false := by
    unfold Marker.closesFence
    dsimp only
    rw [noTick, decide_eq_false (Nat.not_le.mpr positive), Bool.false_and]
  rw [next, Container.continueAll]
  dsimp only
  rw [if_pos rfl, Leaf.continue?, open_, Bool.and_false,
    if_neg Bool.false_ne_true]

/-- As many back-ticks as opened the code close it. -/
theorem next_of_closingFence {length : Nat} (long : 3 ≤ length) {line : Line}
    (content : line.content = openingFence length []) :
    next ⟨[], .fencedCode tick length⟩ line = (initial, none) := by
  have start : Cursor.ofLine line = ⟨0, openingFence length []⟩ := by
    rw [Cursor.ofLine, content]
  have runs := Marker.run_openingFence length (List.not_mem_nil (a := tick))
  have rest : (openingFence length []).drop length = [] :=
    List.drop_left' List.length_replicate
  have closes :
      Marker.closesFence tick length (openingFence length []) = true := by
    unfold Marker.closesFence
    dsimp only
    rw [runs, rest, decide_eq_true (Nat.le_refl length)]
    rfl
  rw [next, start, Container.continueAll]
  dsimp only
  obtain ⟨others, shape⟩ := exists_openingFence_eq_cons long []
  rw [shape] at closes ⊢
  have visible : Cursor.visible ⟨0, tick :: others⟩ = tick :: others := rfl
  have indent : Cursor.indent ⟨0, tick :: others⟩ = 0 := rfl
  rw [if_pos rfl, Leaf.continue?, visible, indent, closes]
  rfl

/-- A line that completes no heading only changes what is open. -/
theorem headingSpans_cons {following : OpenBlocks} {line : Line}
    (moves : blocks.next line = (following, none)) (rest : List Line) :
    headingSpans blocks (line :: rest) = headingSpans following rest := by
  rw [headingSpans, moves]

/-- Lines of code complete no heading. -/
theorem headingSpans_of_code {length : Nat} (positive : 0 < length)
    {code : List Line} (absent : ∀ line ∈ code, tick ∉ line.content)
    (rest : List Line) :
    headingSpans ⟨[], .fencedCode tick length⟩ (code ++ rest) =
      headingSpans ⟨[], .fencedCode tick length⟩ rest := by
  induction code with
  | nil =>
      rfl
  | cons line code inductionHypothesis =>
      obtain ⟨absentFirst, absentRest⟩ := List.forall_mem_cons.mp absent
      rw [List.cons_append,
        headingSpans_cons (next_of_code positive absentFirst)]
      exact inductionHypothesis absentRest

end OpenBlocks

/-! ## Code blocks -/

/-- Code in back-tick fences. Neither the code nor what is said of it has a
back-tick. -/
structure FencedCode where
  length : Nat
  info : Text
  code : Text
  long : 3 ≤ length
  plain : IsPlain info
  infoTicks : tick ∉ info
  codeTicks : tick ∉ code

namespace FencedCode

variable (fenced : FencedCode)

/-- The fences with the code between them, each on a line of its own. -/
def lines : Text :=
  openingFence fenced.length fenced.info ++ '\n' :: (fenced.code ++
    '\n' :: openingFence fenced.length [])

/-- The code block with a blank line above it and one below it. -/
def text : Text :=
  '\n' :: (fenced.lines ++ ['\n', '\n'])

end FencedCode

end ComponentDocs.Markdown
