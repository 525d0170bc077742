import LeafSurvey.Corpus
import LeafSurvey.Proofs.NumberRange
import LeafSurvey.Proofs.RepeatedKeys
import LeafSurvey.Proofs.ScalarTokens
import LeafSurvey.Proofs.TextBytes

/-!
# What a file holds

Entries and scalar tokens of a file are counted by two passes over its text, and
`Store.checkFile` compares them. Both passes succeed exactly on the files that
hold a document, and what they answer is fixed by the document as written.
`Store.Holds` collects these facts about one file:

* `holds_or_fails`: a file that can be read holds a document or fails every pass
  with one failure;
* `checkFile_eq_ok`: the check of a file succeeds exactly if its document has as
  many entries as leaves.
-/

namespace LeafSurvey.Store

/-- A file holds a document, as written, and reading the document gives the
entries. -/
structure Holds (s : Store) (p : FilePath) (written : Document Leaf)
    (es : List Entry) : Prop where
  reads : s.writtenDocument p = .ok written
  entries : s.entriesOfFile p = .ok es
  tokens : s.countTokens p = .ok written.leafCount
  entries_eq : (written.collapse.leaves [] false).mapM Placed.entry? = .ok es

/-! ## The document as written -/

theorem writtenDocument_eq_ok {s : Store} {p : FilePath} {d : Document Leaf} :
    s.writtenDocument p = .ok d ↔ ∃ bytes, s.read p = .ok bytes
      ∧ Json.refusedNumber? bytes = none ∧ Json.ofBytes? bytes = .ok d := by
  unfold writtenDocument
  cases s.read p with
  | error fault => simp
  | ok bytes =>
    cases hnumber : Json.refusedNumber? bytes with
    | some fault => simp [hnumber]
    | none => cases hd : Json.ofBytes? bytes <;> simp [hnumber, hd]

/-- A file that can be read but holds no document fails for a number that is
not taken in, or else for a fault of its text. -/
theorem writtenDocument_eq_error {s : Store} {p : FilePath} {bytes : ByteArray}
    {failure : Failure} (hread : s.read p = .ok bytes) :
    s.writtenDocument p = .error failure
      ↔ (∃ fault, Json.refusedNumber? bytes = some fault
          ∧ failure = .number fault)
        ∨ ∃ fault, Json.refusedNumber? bytes = none
            ∧ Json.ofBytes? bytes = .error fault
          ∧ failure = .document p fault := by
  simp only [writtenDocument, hread]
  cases Json.refusedNumber? bytes with
  | some fault => simp [eq_comm]
  | none => cases Json.ofBytes? bytes <;> simp [eq_comm]

/-- A file without a document cannot be read, or has a number that is not taken
in, or its bytes are no document. -/
theorem fault_of_written_error {s : Store} {p : FilePath} {failure : Failure}
    (h : s.writtenDocument p = .error failure) :
    (∃ fault, s.read p = .error fault ∧ failure = .file fault)
      ∨ ∃ bytes, s.read p = .ok bytes
        ∧ ((∃ fault, Json.refusedNumber? bytes = some fault
            ∧ failure = .number fault)
          ∨ ∃ fault, Json.refusedNumber? bytes = none
              ∧ Json.ofBytes? bytes = .error fault
            ∧ failure = .document p fault) := by
  cases hread : s.read p with
  | error fault =>
    rw [writtenDocument, hread] at h
    cases h
    exact .inl ⟨fault, rfl, rfl⟩
  | ok bytes => exact .inr ⟨bytes, rfl, (writtenDocument_eq_error hread).mp h⟩

/-- Every leaf of a document that a file holds, and of what is read of it, has
its entry. -/
theorem collapse_exact {s : Store} {p : FilePath} {written : Document Leaf}
    (h : s.writtenDocument p = .ok written) :
    ∀ l ∈ written.collapse.leaves [] false, ∃ e, l.entry? = .ok e := by
  obtain ⟨bytes, _, _, hd⟩ := writtenDocument_eq_ok.mp h
  intro l hl
  refine Json.ofBytes?_exact hd l ?_
  rw [(Document.leaves_perm [] false written).mem_iff]
  exact List.mem_append_left _ hl

/-- A file whose text writes a document holds it. -/
theorem exists_holds {s : Store} {p : FilePath} {written : Document Leaf}
    (h : s.writtenDocument p = .ok written) : ∃ es, s.Holds p written es := by
  obtain ⟨es, hes⟩ := Outcome.exists_mapM_eq_ok (collapse_exact h)
  refine ⟨es, h, ?_, ?_, hes⟩
  · have hdoc : s.document p = .ok written.collapse :=
      Outcome.bind_eq_ok.mpr ⟨written, h, rfl⟩
    refine Outcome.bind_eq_ok.mpr ⟨written.collapse, hdoc, ?_⟩
    rw [Document.toExcept_entries, hes]
    rfl
  · exact Outcome.bind_eq_ok.mpr ⟨written, h, rfl⟩

/-! ## One failure for all passes -/

/-- Every pass over a file that holds no document fails with the same
failure. -/
structure Fails (s : Store) (p : FilePath) (failure : Failure) : Prop where
  document : s.document p = .error failure
  entries : s.entriesOfFile p = .error failure
  tokens : s.countTokens p = .error failure
  check : s.checkFile p = .error failure

theorem fails_of_written {s : Store} {p : FilePath} {failure : Failure}
    (h : s.writtenDocument p = .error failure) : s.Fails p failure := by
  have hdoc : s.document p = .error failure :=
    Outcome.bind_eq_error.mpr (.inl h)
  have hentries : s.entriesOfFile p = .error failure :=
    Outcome.bind_eq_error.mpr (.inl hdoc)
  exact ⟨hdoc, hentries, Outcome.bind_eq_error.mpr (.inl h),
    Outcome.bind_eq_error.mpr (.inl hentries)⟩

/-- A file holds a document, or every pass over it fails. -/
theorem holds_or_fails (s : Store) (p : FilePath) :
    (∃ written es, s.Holds p written es) ∨ ∃ failure, s.Fails p failure := by
  cases h : s.writtenDocument p with
  | ok written => exact .inl ⟨written, exists_holds h⟩
  | error failure => exact .inr ⟨failure, fails_of_written h⟩

/-! ## The check of a file -/

namespace Holds

variable {s : Store} {p : FilePath} {written : Document Leaf} {es : List Entry}

/-- The check compares the entries with the leaves as written. -/
theorem checkFile (h : s.Holds p written es) :
    s.checkFile p = if es.length = written.leafCount then .ok written.leafCount
      else .error (.leafMismatch p.name es.length written.leafCount) := by
  unfold Store.checkFile
  rw [h.entries, h.tokens]
  rfl

theorem document (h : s.Holds p written es) :
    s.document p = .ok written.collapse :=
  Outcome.bind_eq_ok.mpr ⟨written, h.reads, rfl⟩

/-- There are as many entries as leaves in the document as read. -/
theorem length_entries (h : s.Holds p written es) :
    es.length = written.collapse.leafCount := by
  rw [Outcome.length_of_mapM h.entries_eq, Document.length_leaves]

/-- The entries and the lost leaves are together as many as the scalar
tokens. -/
theorem leafCount_eq (h : s.Holds p written es) :
    written.leafCount = es.length + (written.lost [] false).length := by
  rw [h.length_entries]
  exact Document.leafCount_eq [] false written

/-- The entries are as many as the scalar tokens exactly if no leaf is lost. -/
theorem length_eq_iff (h : s.Holds p written es) :
    es.length = written.leafCount ↔ written.lost [] false = [] := by
  rw [h.leafCount_eq, ← List.length_eq_zero_iff]
  omega

/-- The scalar tokens of the text are the leaves of the document as written. -/
theorem scalars (h : s.Holds p written es) :
    ∃ bytes, s.read p = .ok bytes ∧ Json.ofBytes? bytes = .ok written
      ∧ Json.scalarsOfBytes? bytes = some (written.leaves [] false) := by
  obtain ⟨bytes, hread, _, hd⟩ := writtenDocument_eq_ok.mp h.reads
  exact ⟨bytes, hread, hd, Json.scalarsOfBytes?_eq_leaves hd⟩

end Holds

/-- The check of a file succeeds exactly if the file holds a document with as
many entries as leaves. -/
theorem checkFile_eq_ok {s : Store} {p : FilePath} {n : Nat} :
    s.checkFile p = .ok n ↔ ∃ written es, s.Holds p written es ∧ es.length = n
      ∧ written.leafCount = n := by
  constructor
  · intro h
    rcases holds_or_fails s p with ⟨written, es, hholds⟩ | ⟨failure, hfails⟩
    · rw [hholds.checkFile] at h
      split at h
      · rename_i heq
        cases h
        exact ⟨written, es, hholds, heq, rfl⟩
      · cases h
    · rw [hfails.check] at h
      cases h
  · rintro ⟨written, es, hholds, hes, hn⟩
    rw [hholds.checkFile, if_pos (hes.trans hn.symm), hn]

/-! ## The row of a file -/

theorem Holds.tally {s : Store} {p : FilePath} {written : Document Leaf}
    {es : List Entry} (h : s.Holds p written es) :
    Corpus.tally s p = .ok ⟨p, es.length, written.leafCount⟩ := by
  unfold Corpus.tally
  rw [h.entries, h.tokens]
  rfl

theorem Fails.tally {s : Store} {p : FilePath} {failure : Failure}
    (h : s.Fails p failure) :
    Corpus.tally s p = .error failure := by
  unfold Corpus.tally
  rw [h.entries]
  rfl

/-! ## Files of text -/

/-- A store that holds nothing but one file of text. -/
def ofText (name text : String) : Store :=
  ⟨[([name], .file text.toUTF8)]⟩

/-- A store of files of text by name. -/
def ofTexts (texts : List (String × String)) : Store :=
  ⟨texts.map fun t => ([t.1], .file t.2.toUTF8)⟩

/-- A file of text that starts without mark and whose numbers are taken in holds
the document that the text writes. -/
theorem writtenDocument_of_text {s : Store} {p : FilePath} {text : String}
    {d : Document Leaf} (hread : s.read p = .ok text.toUTF8)
    (hmark : Json.skipMark text.toUTF8 = text.toUTF8)
    (hnumbers : Json.refusedIn? text.toList = none)
    (hd : Json.ofChars? text.toList = some d) :
    s.writtenDocument p = .ok d :=
  writtenDocument_eq_ok.mpr ⟨_, hread,
    (Json.refusedNumber?_toUTF8 hmark).trans hnumbers,
    Json.ofBytes?_toUTF8 hmark hd⟩

/-- A file whose text loses no leaf passes its check. -/
theorem checkFile_of_text {s : Store} {p : FilePath} {text : String}
    {d : Document Leaf} (hread : s.read p = .ok text.toUTF8)
    (hmark : Json.skipMark text.toUTF8 = text.toUTF8)
    (hnumbers : Json.refusedIn? text.toList = none)
    (hd : Json.ofChars? text.toList = some d) (hlost : d.lost [] false = []) :
    s.checkFile p = .ok d.leafCount := by
  obtain ⟨es, hholds⟩ :=
    exists_holds (writtenDocument_of_text hread hmark hnumbers hd)
  exact checkFile_eq_ok.mpr ⟨d, es, hholds, hholds.length_eq_iff.mpr hlost, rfl⟩

/-- A number whose power of ten no exact decimal holds. -/
def greatText : String := "1e1000000000000000000"

theorem ofBytes?_greatText : ∃ d, Json.ofBytes? greatText.toUTF8 = .ok d :=
  ⟨_, Json.ofBytes?_toUTF8 (Json.skipMark_toUTF8 rfl rfl) rfl⟩

/-- Every pass over a file with that number ends there. -/
theorem fails_of_greatText {s : Store} {p : FilePath}
    (hread : s.read p = .ok greatText.toUTF8) :
    s.Fails p (.number .outOfRange) := by
  have hnumber : Json.refusedNumber? greatText.toUTF8 = some .outOfRange :=
    (Json.refusedNumber?_toUTF8 (Json.skipMark_toUTF8 rfl rfl)).trans
      (by decide +kernel)
  exact fails_of_written
    ((writtenDocument_eq_error hread).mpr (.inl ⟨_, hnumber, rfl⟩))

end LeafSurvey.Store

namespace LeafSurvey.Corpus

/-- The corpus of files with the given names in the working directory. -/
def ofNames (names : List String) : Corpus :=
  ⟨⟨.working, []⟩, names.map fun name => ⟨.working, [name]⟩⟩

/-- The entries of a corpus, from those of its files. -/
theorem entries_eq_ok {c : Corpus} {s : Store} {parts : List (List Entry)}
    (h : c.files.mapM s.entriesOfFile = .ok parts) :
    c.entries s = .ok parts.flatten :=
  Outcome.bind_eq_ok.mpr ⟨parts, h, rfl⟩

end LeafSurvey.Corpus
