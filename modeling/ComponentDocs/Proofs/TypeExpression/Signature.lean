import ComponentDocs.Proofs.TypeExpression.Brackets

/-!
Signatures as they are written: parameters with or without a type between
parentheses, and behind an arrow the type of the result. Splitting such a text
gives the parameters and the result back, however deep their types nest.
-/

namespace ComponentDocs.Signature

/-! ## Parameters -/

/-- A name of a parameter: trimmed, and without the characters that end a
parameter or its name and without brackets. -/
structure IsParameterName (name : Text) : Prop where
  nonempty : name ≠ []
  trimmed : Text.trim name = name
  plain : ∀ character ∈ name, character ∉ ":,()<>\x7b\x7d[]".toList

instance (name : Text) : Decidable (IsParameterName name) :=
  decidable_of_iff
    (name ≠ [] ∧ Text.trim name = name ∧
      name.all (· ∉ ":,()<>\x7b\x7d[]".toList) = true)
    ⟨fun ⟨nonempty, trimmed, plain⟩ =>
        ⟨nonempty, trimmed, fun character member =>
          of_decide_eq_true (List.all_eq_true.mp plain character member)⟩,
      fun named =>
        ⟨named.nonempty, named.trimmed,
          List.all_eq_true.mpr fun character member =>
            decide_eq_true (named.plain character member)⟩⟩

/-- A type of a parameter: trimmed, with balanced brackets, and with commas
inside of them only. -/
structure IsParameterType (type : Text) : Prop where
  nonempty : type ≠ []
  trimmed : Text.trim type = type
  item : IsItem ',' type
  closed : IsClosed type

instance (type : Text) : Decidable (IsParameterType type) :=
  decidable_of_iff
    (type ≠ [] ∧ Text.trim type = type ∧ IsItem ',' type ∧ IsClosed type)
    ⟨fun ⟨nonempty, trimmed, item, closed⟩ =>
        ⟨nonempty, trimmed, item, closed⟩,
      fun typed =>
        ⟨typed.nonempty, typed.trimmed, typed.item, typed.closed⟩⟩

namespace IsParameterName

variable {name : Text} (named : IsParameterName name)

include named

theorem unbracketed {character : Char} (member : character ∈ name) :
    isOpening character = false ∧ isClosing character = false := by
  have plain := named.plain character member
  have opening : "(<\x7b[".toList ⊆ ":,()<>\x7b\x7d[]".toList := by
    simp
  have closing : ")>\x7d]".toList ⊆ ":,()<>\x7b\x7d[]".toList := by
    simp
  constructor
  · apply Bool.eq_false_iff.mpr
    intro opens
    exact plain (opening (List.contains_iff_mem.mp opens))
  · apply Bool.eq_false_iff.mpr
    intro closes
    exact plain (closing (List.contains_iff_mem.mp closes))

theorem comma_not_mem : ',' ∉ name := by
  intro member
  exact named.plain ',' member (by decide)

theorem isItem_comma : IsItem ',' name :=
  isItem_of_unbracketed named.comma_not_mem fun _ => named.unbracketed

theorem isItem_colon : IsItem ':' name := by
  apply isItem_of_unbracketed
  · intro member
    exact named.plain ':' member (by decide)
  · intro character member
    exact named.unbracketed member

/-- A name with its colon is no place for a comma. -/
theorem isItem_append_colon : IsItem ',' (name ++ [':']) := by
  apply isItem_of_unbracketed
  · rw [List.mem_append, not_or]
    exact ⟨named.comma_not_mem, by decide⟩
  · intro character member
    rcases List.mem_append.mp member with inName | isColon
    · exact named.unbracketed inName
    · rw [List.mem_singleton.mp isColon]
      decide

theorem isClosed : IsClosed name := by
  apply isClosed_of_not_mem
  · intro member
    exact named.plain '(' member (by decide)
  · intro member
    exact named.plain ')' member (by decide)

end IsParameterName

/-- A parameter as it is written, with or without a type. -/
structure WrittenParameter where
  name : Text
  type? : Option Text
  named : IsParameterName name
  typed : ∀ type ∈ type?, IsParameterType type

namespace WrittenParameter

/-- The text `name: type`, or the name alone. -/
def text (written : WrittenParameter) : Text :=
  match written.type? with
  | none => written.name
  | some type => written.name ++ ": ".toList ++ type

/-- The parameter with the normal form of its type; without one its type is
`any`. -/
def parameter (written : WrittenParameter) : Parameter :=
  match written.type? with
  | none => ⟨written.name, ⟨[], .simple "any".toList⟩⟩
  | some type => ⟨written.name, TypeExpression.ofText type⟩

theorem text_ne_nil (written : WrittenParameter) : written.text ≠ [] := by
  rcases written with ⟨name, _ | type, named, typed⟩
  · exact named.nonempty
  · simp [text, named.nonempty]

theorem trim_text (written : WrittenParameter) :
    Text.trim written.text = written.text := by
  rcases written with ⟨name, _ | type, named, typed⟩
  · exact named.trimmed
  · have isType := typed type rfl
    exact Text.trim_append_eq_self _ named.trimmed named.nonempty
      isType.trimmed isType.nonempty

theorem isItem_text (written : WrittenParameter) :
    IsItem ',' written.text := by
  rcases written with ⟨name, _ | type, named, typed⟩
  · exact named.isItem_comma
  · have isType := typed type rfl
    have spaced : name ++ ": ".toList ++ type = name ++ [':'] ++ ' ' :: type := by
      simp
    rw [text]
    dsimp only
    rw [spaced]
    exact named.isItem_append_colon.append_space (by decide) isType.item

theorem isClosed_text (written : WrittenParameter) :
    IsClosed written.text := by
  rcases written with ⟨name, _ | type, named, typed⟩
  · exact named.isClosed
  · have isType := typed type rfl
    exact (named.isClosed.append (by decide)).append isType.closed

theorem parameter_text (written : WrittenParameter) :
    Signature.parameter written.text = written.parameter := by
  rcases written with ⟨name, _ | type, named, typed⟩
  · have whole : pieces ':' name = [name] := named.isItem_colon.pieces_eq
    rw [Signature.parameter, text]
    dsimp only
    rw [whole]
    rfl
  · have isType := typed type rfl
    have shape : name ++ ": ".toList ++ type = name ++ ':' :: ' ' :: type := by
      simp
    have split :=
      named.isItem_colon.pieces_append_cons (by decide) (' ' :: type)
    -- A type may have colons outside of brackets; they are put back.
    have joined : Text.join [':'] (pieces ':' (' ' :: type)) = ' ' :: type :=
      join_splitTopLevel 0 '\x00' (' ' :: type)
    obtain ⟨first, rest, pieces_eq⟩ := List.exists_cons_of_ne_nil
      (splitTopLevel_ne_nil ':' 0 '\x00' (' ' :: type))
    have trimmed : Text.trim (' ' :: type) = type := by
      rw [Text.trim_cons_space, isType.trimmed]
    have visible : type.isEmpty = false := by
      simpa using isType.nonempty
    rw [pieces, pieces_eq] at joined
    rw [Signature.parameter, text]
    dsimp only
    rw [shape, split, pieces, pieces_eq]
    dsimp only
    rw [joined, trimmed, named.trimmed, visible]
    rfl

end WrittenParameter

/-! ## Lists of parameters -/

theorem join_comma_space (first : Text) (rest : List Text) :
    Text.join ", ".toList (first :: rest) =
      Text.join [','] (first :: rest.map (' ' :: ·)) := by
  induction rest generalizing first with
  | nil =>
      rfl
  | cons second others inductionHypothesis =>
      have later := inductionHypothesis second
      have moved :
          Text.join [','] ((' ' :: second) :: others.map (' ' :: ·)) =
            ' ' :: Text.join [','] (second :: others.map (' ' :: ·)) :=
        TypeExpression.join_extendFirst [','] ' ' (List.cons_ne_nil second _)
      rw [Text.join_cons_cons, later, List.map_cons, Text.join_cons_cons,
        moved]
      simp

/-- Trimmed items with a comma and a space between them are read one by
one. -/
theorem parameterList_join {texts : List Text}
    (each : ∀ text ∈ texts, text ≠ [] ∧ Text.trim text = text ∧
      IsItem ',' text) :
    parameterList (Text.join ", ".toList texts) = texts.map parameter := by
  cases texts with
  | nil =>
      decide
  | cons first rest =>
      obtain ⟨⟨firstNonempty, firstTrimmed, firstIsItem⟩, others⟩ :=
        List.forall_mem_cons.mp each
      have areItems :
          ∀ item ∈ first :: rest.map (' ' :: ·), IsItem ',' item := by
        intro item member
        rcases List.mem_cons.mp member with rfl | isLater
        · exact firstIsItem
        · obtain ⟨text, isRest, rfl⟩ := List.mem_map.mp isLater
          obtain ⟨-, -, isItem⟩ := others text isRest
          have empty : IsItem ',' [] := by decide
          exact empty.append_space (by decide) isItem
      have trimmed :
          (first :: rest.map (' ' :: ·)).map Text.trim = first :: rest := by
        rw [List.map_cons, firstTrimmed, List.map_map]
        congr 1
        conv_rhs => rw [← List.map_id rest]
        apply List.map_congr_left
        intro text isRest
        obtain ⟨-, isTrimmed, -⟩ := others text isRest
        rw [Function.comp_apply, Text.trim_cons_space, isTrimmed]
        rfl
      have kept : (first :: rest).filter (!·.isEmpty) = first :: rest := by
        apply List.filter_eq_self.mpr
        intro text member
        simpa using (each text member).1
      rw [parameterList, join_comma_space,
        pieces_join (by decide) (List.cons_ne_nil _ _) areItems, trimmed, kept]

theorem parameterList_written (written : List WrittenParameter) :
    parameterList (Text.join ", ".toList (written.map WrittenParameter.text)) =
      written.map WrittenParameter.parameter := by
  have each :
      ∀ text ∈ written.map WrittenParameter.text,
        text ≠ [] ∧ Text.trim text = text ∧ IsItem ',' text := by
    intro text member
    obtain ⟨item, -, rfl⟩ := List.mem_map.mp member
    exact ⟨item.text_ne_nil, item.trim_text, item.isItem_text⟩
  rw [parameterList_join each, List.map_map]
  exact List.map_congr_left fun item _ => item.parameter_text

/-! ## Signatures -/

def resultText (result? : Option Text) : Text :=
  match result? with
  | none => []
  | some result => " => ".toList ++ result

/-- The text `(parameters) => result`, or `(parameters)` without a result. -/
def signatureText (written : List WrittenParameter) (result? : Option Text) :
    Text :=
  '(' :: (Text.join ", ".toList (written.map WrittenParameter.text) ++
    ')' :: resultText result?)

section Result

variable {result? : Option Text}
  (proper : ∀ result ∈ result?, result ≠ [] ∧ Text.trim result = result)

include proper

theorem result?_resultText :
    Signature.result? (resultText result?) =
      result?.map TypeExpression.ofText := by
  cases result? with
  | none =>
      rfl
  | some result =>
      obtain ⟨nonempty, trimmed⟩ := proper result rfl
      have opened :
          Text.trim (resultText (some result)) = "=> ".toList ++ result := by
        have inner : Text.trim ("=>".toList ++ [' '] ++ result) =
            "=>".toList ++ [' '] ++ result :=
          Text.trim_append_eq_self _ (by decide) (by decide) trimmed nonempty
        exact (Text.trim_cons_space _).trans inner
      have written :
          Text.withoutStart? "=>".toList ("=> ".toList ++ result) =
            some (' ' :: result) := by
        simp [Text.withoutStart?]
      have visible : result.isEmpty = false := by
        simpa using nonempty
      rw [Signature.result?, opened, written]
      dsimp only
      rw [Text.trim_cons_space, trimmed, visible]
      rfl

theorem trim_signatureText (written : List WrittenParameter) :
    Text.trim (signatureText written result?) =
      signatureText written result? := by
  have opened : Text.trim ['('] = ['('] := by decide
  have closed : Text.trim [')'] = [')'] := by decide
  cases result? with
  | none =>
      exact Text.trim_append_eq_self _ opened (by decide) closed (by decide)
  | some result =>
      obtain ⟨nonempty, trimmed⟩ := proper result rfl
      have shape :
          signatureText written (some result) =
            ['('] ++
              (Text.join ", ".toList (written.map WrittenParameter.text) ++
                ") => ".toList) ++ result := by
        simp [signatureText, resultText]
      rw [shape]
      exact Text.trim_append_eq_self _ opened (by decide) trimmed nonempty

end Result

theorem ofText?_of_trim {text rest : Text}
    (opened : Text.trim text = '(' :: rest) :
    ofText? text =
      (closing? 1 rest).map fun (inside, after) =>
        ⟨parameterList inside, result? after⟩ := by
  rw [ofText?, opened]
  rfl

/-- A text starts with a list in parentheses: what stands in the parentheses,
closed on its own, and what follows them. -/
structure StartsWithList (text inside after : Text) : Prop where
  written : Text.trim text = '(' :: (inside ++ ')' :: after)
  closed : IsClosed inside

/-- The texts with a signature are those that start with a list, which gives
the parameters, and what follows it gives the result. -/
theorem ofText?_eq_some_iff {text : Text} {signature : Signature} :
    ofText? text = some signature ↔
      ∃ inside after, StartsWithList text inside after ∧
        signature = ⟨parameterList inside, result? after⟩ := by
  constructor
  · intro found
    unfold ofText? at found
    split at found
    · rename_i rest opened
      obtain ⟨⟨inside, after⟩, closes, rfl⟩ := Option.map_eq_some_iff.mp found
      obtain ⟨rfl, nonneg, closed⟩ := eq_append_of_closing? closes
      refine ⟨inside, after, ⟨opened, ?_, ?_⟩, rfl⟩
      · intro before isPrefix
        simpa using nonneg before isPrefix
      · simpa using closed
    · cases found
  · rintro ⟨inside, after, starts, rfl⟩
    have found : closing? 1 (inside ++ ')' :: after) = some (inside, after) := by
      apply closing?_append 0
      · intro before isPrefix
        simpa using starts.closed.nonneg before isPrefix
      · simpa using starts.closed.closed
    rw [ofText?_of_trim starts.written, found]
    rfl

/-- Splitting a signature gives the names of its parameters in order, each with
the normal form of its type or with `any`, and the normal form of its result. -/
theorem ofText?_signatureText (written : List WrittenParameter)
    (result? : Option Text)
    (proper : ∀ result ∈ result?, result ≠ [] ∧ Text.trim result = result) :
    ofText? (signatureText written result?) =
      some ⟨written.map WrittenParameter.parameter,
        result?.map TypeExpression.ofText⟩ := by
  have closed :
      IsClosed
        (Text.join ", ".toList (written.map WrittenParameter.text)) := by
    apply isClosed_join (by decide)
    intro text member
    obtain ⟨item, -, rfl⟩ := List.mem_map.mp member
    exact item.isClosed_text
  have found :
      closing? 1
          (Text.join ", ".toList (written.map WrittenParameter.text) ++
            ')' :: resultText result?) =
        some (Text.join ", ".toList (written.map WrittenParameter.text),
          resultText result?) := by
    apply closing?_append 0
    · intro before isPrefix
      have bound := closed.nonneg before isPrefix
      omega
    · rw [closed.closed]
      rfl
  rw [ofText?_of_trim (trim_signatureText proper written), found,
    Option.map_some]
  dsimp only
  rw [parameterList_written, result?_resultText proper]

/-- Parameters whose types nest a callback, generics and an object shape, and
one without a type. -/
def loaderParameters : List WrittenParameter :=
  [{ name := "done".toList
     type? := some "Map<string, (a: A, b) => void>".toList
     named := by decide +kernel
     typed := by decide +kernel },
    { name := "force".toList
      type? := none
      named := by decide +kernel
      typed := by decide },
    { name := "size?".toList
      type? := some "\x7b w: [number, number], f: () => x \x7d".toList
      named := by decide +kernel
      typed := by decide +kernel }]

theorem ofText?_loader :
    (ofText? ("(done: Map<string, (a: A, b) => void>, force, ".toList ++
      "size?: \x7b w: [number, number], f: () => x \x7d)".toList ++
      " => Promise<void>".toList)).map
        (fun signature =>
          (signature.parameters.map Parameter.name,
            signature.parameters.map (·.type.raw),
            signature.result.map TypeExpression.raw)) =
      some (["done".toList, "force".toList, "size?".toList],
        ["Map<string, (a: A, b) => void>".toList, [],
          "\x7b w: [number, number], f: () => x \x7d".toList],
        some "Promise<void>".toList) := by
  have written :
      "(done: Map<string, (a: A, b) => void>, force, ".toList ++
          "size?: \x7b w: [number, number], f: () => x \x7d)".toList ++
          " => Promise<void>".toList =
        signatureText loaderParameters (some "Promise<void>".toList) := by
    decide +kernel
  have proper :
      ∀ result ∈ some "Promise<void>".toList,
        result ≠ [] ∧ Text.trim result = result := by
    decide +kernel
  rw [written, ofText?_signatureText loaderParameters _ proper]
  rfl

end ComponentDocs.Signature
