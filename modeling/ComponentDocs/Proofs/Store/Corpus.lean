import ComponentDocs.Proofs.Component.Json
import ComponentDocs.Proofs.Instant
import ComponentDocs.Proofs.Store.Commit

/-!
A saved corpus is loaded as it was: its text is read back whatever it holds,
and the path of the corpus leads to the text that was saved last.
-/

namespace ComponentDocs.Store

open Files

/-! ## The text of a corpus -/

theorem readCorpus?_corpusText {corpus : Corpus}
    (valid : corpus.generatedAt.isValid = true) :
    readCorpus? (corpusText corpus) = some corpus := by
  rw [readCorpus?, corpusText, Json.read?_pretty corpus.isWritten_toJson,
    Option.bind_some, Corpus.ofJson?_toJson (Instant.read?_write valid)]

/-! ## The file of the corpus -/

/-- After a successful save the path of the corpus leads to its text. -/
theorem read_corpusPath_of_saved {store : Store} {platform : Platform}
    {corpus : Corpus} {disk : Disk}
    (saved : ((store.save platform corpus).run disk).1 = .ok ()) :
    ∃ place,
      ((store.save platform corpus).run disk).2.locate store.corpusPath =
        .ok place ∧
      ((store.save platform corpus).run disk).2.at? place =
        some (.file (.text (corpusText corpus))) := by
  obtain ⟨seen, runs⟩ :=
    FileTask.exists_runs_run (store.save platform corpus) disk
  have replacement := replacesWhole_save store platform corpus _ _ _ _ runs
  exact Disk.locate_of_find? (replacement.committed () saved)

/-- The text at the path of the corpus decides what is loaded. -/
theorem run_load_of_at? {store : Store} {disk : Disk} {place : List Text}
    {content : Text} (leads : disk.locate store.corpusPath = .ok place)
    (isFile : disk.at? place = some (.file (.text content))) :
    (store.load.run disk).1 = corpusOfText content := by
  have found : disk.find? store.corpusPath = some (.file (.text content)) := by
    rw [Disk.find?, leads]
    exact isFile
  rw [run_load, found]
  rfl

/-- Nothing of a corpus is lost when it is kept: its text is read back as the
corpus, and on every system and disk where it can be saved it is then
loaded. -/
theorem load_save {corpus : Corpus}
    (valid : corpus.generatedAt.isValid = true) :
    readCorpus? (corpusText corpus) = some corpus ∧
      ∀ (store : Store) (platform : Platform) (disk : Disk),
        ((store.save platform corpus).run disk).1 = .ok () →
          (store.load.run ((store.save platform corpus).run disk).2).1 =
            .ok corpus := by
  have readBack := readCorpus?_corpusText valid
  refine ⟨readBack, fun store platform disk saved => ?_⟩
  obtain ⟨place, leads, isCorpus⟩ := read_corpusPath_of_saved saved
  rw [run_load_of_at? leads isCorpus, corpusOfText, readBack]

/-- A method with a parameter and a result, among texts with quotes, line ends
and control characters. -/
def dialogCorpus : Corpus where
  version := "1.\"0\"".toList
  generatedAt := ⟨2024, 2, 29, 23, 5, 9, 250000000⟩
  components := [
    { Component.ofTag "ui-dialog".toList with
      description := some "two\nlines\u0001".toList
      props := [
        ⟨"size".toList, none,
          ⟨"'s' | 'm'".toList, .union (["s", "m"].map String.toList)⟩,
          some "s".toList⟩]
      methods := [
        ⟨"open".toList, some [],
          ⟨"(at: number) => void".toList, .literal "(at: number) => void".toList⟩,
          { parameters :=
              [⟨"at".toList, ⟨"number".toList, .simple "number".toList⟩⟩]
            result := some ⟨"void".toList, .simple "void".toList⟩ }⟩] }]

/-- A disk with an empty data directory. -/
def dataDisk : Disk where
  root := .directory [("data".toList, .directory [])]
  workingDirectory := []

theorem dialogCorpus_load_save :
    dialogCorpus.generatedAt.isValid = true ∧
      ((Store.save ⟨"data".toList⟩ .other dialogCorpus).run dataDisk).1 =
        .ok () ∧
      ((Store.load ⟨"data".toList⟩).run
        ((Store.save ⟨"data".toList⟩ .other dialogCorpus).run dataDisk).2).1 =
          .ok dialogCorpus := by
  have valid : dialogCorpus.generatedAt.isValid = true := by decide
  have saved :
      ((Store.save ⟨"data".toList⟩ .other dialogCorpus).run dataDisk).1 =
        .ok () := by
    rfl
  exact ⟨valid, saved, (load_save valid).2 _ _ _ saved⟩

end ComponentDocs.Store
