import ComponentDocs.Text.Basic

/-!
A cache of the answers of one release. A look-up under another version than
the known one first drops all entries.
-/

namespace ComponentDocs

/-- A cache: its entries, no two with one key; the version that they belong
to; and how many changes of the version it has seen. -/
structure ReleaseCache (κ α : Type) where
  entries : List (κ × α)
  knownVersion : Option Text
  generation : Nat

namespace ReleaseCache

variable {κ α : Type} [DecidableEq κ]

/-- The cache without entries that knows no version. -/
def empty : ReleaseCache κ α :=
  ⟨[], none, 0⟩

def size (cache : ReleaseCache κ α) : Nat :=
  cache.entries.length

def value? (cache : ReleaseCache κ α) (key : κ) : Option α :=
  (cache.entries.find? (fun entry => entry.1 = key)).map Prod.snd

def observe (cache : ReleaseCache κ α) (current : Text) :
    ReleaseCache κ α :=
  match cache.knownVersion with
  | none => { cache with knownVersion := some current }
  | some known =>
      if known = current then cache
      else ⟨[], some current, cache.generation + 1⟩

def get (cache : ReleaseCache κ α) (current : Text) (key : κ) :
    Option α × ReleaseCache κ α :=
  let observed := cache.observe current
  (observed.value? key, observed)

def without (key : κ) (entries : List (κ × α)) : List (κ × α) :=
  entries.filter fun entry => entry.1 ≠ key

/-- Store a value. The current version is noted only if none is known. -/
def set (cache : ReleaseCache κ α) (current : Text) (key : κ) (value : α) :
    ReleaseCache κ α :=
  { cache with
    entries := (key, value) :: without key cache.entries
    knownVersion := some (cache.knownVersion.getD current) }

/-- Remove a key, and give the value it had. -/
def delete (cache : ReleaseCache κ α) (key : κ) :
    Option α × ReleaseCache κ α :=
  (cache.value? key, { cache with entries := without key cache.entries })

/-- Remove all entries. The known version stays. -/
def clear (cache : ReleaseCache κ α) : ReleaseCache κ α :=
  { cache with entries := [] }

end ReleaseCache

end ComponentDocs
