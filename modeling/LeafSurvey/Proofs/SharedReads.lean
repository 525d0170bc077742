import LeafSurvey.Survey
import LeafSurvey.Proofs.Outcome

/-!
# What a survey reads

A survey and both tables look at a store only by reading the files of their
corpus. Stores that read alike under these paths give them one answer, whether
it is an outcome or a failure.

* `ReadsAlike.mapM`: a pass over the files that looks at each file by itself;
* `ReadsAlike.run?`, `ReadsAlike.schemaTable`, `ReadsAlike.countTable`: the
  passes of a survey and of the tables.
-/

namespace LeafSurvey

namespace Store

section OneFile

variable {s t : Store} {p : FilePath}

theorem writtenDocument_congr (h : t.read p = s.read p) :
    t.writtenDocument p = s.writtenDocument p := by
  rw [writtenDocument, writtenDocument, h]

theorem entriesOfFile_congr (h : t.read p = s.read p) :
    t.entriesOfFile p = s.entriesOfFile p := by
  rw [entriesOfFile, entriesOfFile, document, document, writtenDocument_congr h]

theorem countTokens_congr (h : t.read p = s.read p) :
    t.countTokens p = s.countTokens p := by
  rw [countTokens, countTokens, writtenDocument_congr h]

theorem checkFile_congr (h : t.read p = s.read p) :
    t.checkFile p = s.checkFile p := by
  rw [checkFile, checkFile, entriesOfFile_congr h, countTokens_congr h]

theorem tally_congr (h : t.read p = s.read p) :
    Corpus.tally t p = Corpus.tally s p := by
  rw [Corpus.tally, Corpus.tally, entriesOfFile_congr h, countTokens_congr h]

end OneFile

/-- One store reads under the given paths what another reads. -/
def ReadsAlike (s t : Store) (files : List FilePath) : Prop :=
  ∀ file ∈ files, t.read file = s.read file

namespace ReadsAlike

variable {s t : Store} {files : List FilePath}

theorem refl (s : Store) (files : List FilePath) : s.ReadsAlike s files :=
  fun _ _ => rfl

theorem mapM {α : Type} {f : Store → FilePath → Except Failure α}
    (h : s.ReadsAlike t files) (hf : ∀ p, t.read p = s.read p → f t p = f s p) :
    files.mapM (f t) = files.mapM (f s) := by
  induction files with
  | nil => rfl
  | cons file rest ih =>
    obtain ⟨hfile, hrest⟩ := List.forall_mem_cons.mp h
    rw [List.mapM_cons, List.mapM_cons, hf file hfile, ih hrest]

theorem countAll (h : s.ReadsAlike t files) :
    t.countAll files = s.countAll files := by
  induction files with
  | nil => rfl
  | cons file rest ih =>
    obtain ⟨hfile, hrest⟩ := List.forall_mem_cons.mp h
    rw [Store.countAll, Store.countAll, countTokens_congr hfile, ih hrest]

variable {c : Corpus}

theorem entries (h : s.ReadsAlike t c.files) : c.entries t = c.entries s := by
  rw [Corpus.entries, Corpus.entries,
    h.mapM (f := entriesOfFile) fun _ => entriesOfFile_congr]

theorem groups (h : s.ReadsAlike t c.files) : c.groups t = c.groups s := by
  rw [Corpus.groups, Corpus.groups, h.entries]

theorem checkFiles (h : s.ReadsAlike t c.files) :
    Survey.checkFiles c t = Survey.checkFiles c s := by
  refine Outcome.forM_eq_of_forall₂ (List.forall₂_same.mpr fun file hfile => ?_)
  rw [checkFile_congr (h file hfile)]

theorem assemble (h : s.ReadsAlike t c.files) (settings : Settings) :
    Survey.assemble c settings t = Survey.assemble c settings s := by
  rw [Survey.assemble, Survey.assemble, checkTotal, checkTotal, h.countAll,
    h.entries, h.groups]

theorem run? (h : s.ReadsAlike t c.files) (settings : Settings) :
    Survey.run? c settings t = Survey.run? c settings s := by
  rw [Survey.run?, Survey.run?, h.checkFiles, h.assemble settings]

theorem schemaTable (h : s.ReadsAlike t c.files) (delimiter : Value) :
    c.schemaTable delimiter t = c.schemaTable delimiter s := by
  rw [Corpus.schemaTable, Corpus.schemaTable, h.groups]

theorem countTable (h : s.ReadsAlike t c.files) :
    c.countTable t = c.countTable s := by
  rw [Corpus.countTable, Corpus.countTable, Corpus.tallies, Corpus.tallies,
    h.mapM (f := Corpus.tally) fun _ => tally_congr]

end ReadsAlike

end Store

end LeafSurvey
