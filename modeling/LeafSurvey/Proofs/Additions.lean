import LeafSurvey.Proofs.Evolution
import LeafSurvey.Proofs.Files

/-!
# One more file

A store that gets one more file, with the directories above it, keeps everything
that could be read before.

* `mem_filesBelow`: the files below a location are those that can be looked up
  there;
* `AddsFile.read`: what is read of a file stays;
* `files_perm_of_adds`: a directory that gets a document is opened with one more
  file.
-/

namespace LeafSurvey

namespace Store

/-! ## Files by place -/

/-- No place is listed twice. This is so where nothing is listed, and placing a
file keeps it so. -/
def HasDistinctPlaces (s : Store) : Prop :=
  (s.entries.map Prod.fst).Nodup

instance (s : Store) : Decidable s.HasDistinctPlaces :=
  inferInstanceAs (Decidable (s.entries.map Prod.fst).Nodup)

theorem places_putEntry (place : Location) (c : Content)
    (es : List (Location × Content)) :
    (putEntry place c es).map Prod.fst
      = if place ∈ es.map Prod.fst then es.map Prod.fst
          else es.map Prod.fst ++ [place] := by
  induction es with
  | nil => rfl
  | cons e rest ih =>
    by_cases he : e.1 = place
    · simp [putEntry, he]
    · have hne : place ≠ e.1 := Ne.symm he
      by_cases hrest : place ∈ rest.map Prod.fst <;> simp_all [putEntry]

namespace HasDistinctPlaces

variable {s : Store}

theorem put (h : s.HasDistinctPlaces) (place : Location) (c : Content) :
    (s.put place c).HasDistinctPlaces := by
  rw [HasDistinctPlaces, Store.put, places_putEntry]
  split
  · exact h
  · rename_i hnew
    rw [← List.concat_eq_append]
    exact List.Nodup.concat hnew h

theorem evolves {writable : Location → Prop} {t : Store}
    (h : s.HasDistinctPlaces) (hevolves : s.Evolves writable t) :
    t.HasDistinctPlaces := by
  induction hevolves with
  | refl => exact h
  | directory _ _ _ ih => exact ih.put _ _
  | file _ _ _ _ ih => exact ih.put _ _

theorem place (h : s.HasDistinctPlaces) (p : FilePath) (bytes : ByteArray) :
    (s.place p bytes).2.HasDistinctPlaces :=
  h.evolves (s.evolves_place p bytes)

theorem lookup_eq_some_iff (h : s.HasDistinctPlaces) {q : Location}
    (hq : q ≠ []) {c : Content} :
    s.lookup q = some c ↔ (q, c) ∈ s.entries := by
  refine ⟨fun hfound => mem_of_lookup hfound hq, fun hmem => ?_⟩
  obtain ⟨c', hfound⟩ := exists_lookup_of_mem hmem
  -- there is one entry with this place
  cases List.inj_on_of_nodup_map h (mem_of_lookup hfound hq) hmem rfl
  exact hfound

theorem mem_filesBelow (h : s.HasDistinctPlaces) {base : Location}
    {names : List String} :
    names ∈ s.filesBelow base
      ↔ names ≠ [] ∧ ∃ bytes,
          s.lookup (base ++ names) = some (.file bytes) := by
  rw [filesBelow_eq, List.mem_filterMap]
  simp only [namesBelow?_eq_some]
  constructor
  · rintro ⟨_, hmem, hne, bytes, rfl⟩
    exact ⟨hne, bytes, (h.lookup_eq_some_iff (by simp [hne])).mpr hmem⟩
  · rintro ⟨hne, bytes, hlookup⟩
    exact ⟨_, (h.lookup_eq_some_iff (by simp [hne])).mp hlookup,
      hne, bytes, rfl⟩

theorem nodup_filesBelow (h : s.HasDistinctPlaces) (base : Location) :
    (s.filesBelow base).Nodup := by
  rw [filesBelow_eq, List.Nodup, List.pairwise_filterMap]
  refine (List.pairwise_map.mp h).imp ?_
  intro e e' hne names hnames names' hnames' heq
  obtain ⟨_, _, rfl⟩ := namesBelow?_eq_some.mp hnames
  obtain ⟨_, _, rfl⟩ := namesBelow?_eq_some.mp hnames'
  exact hne (congrArg (base ++ ·) heq)

end HasDistinctPlaces

/-! ## One file more -/

/-- A store is another with a file at a location where nothing was. Of all else
it has at most got new directories. -/
structure AddsFile (s : Store) (place : Location) (t : Store) : Prop where
  isNew : s.lookup place = none
  isFile : ∃ bytes, t.lookup place = some (.file bytes)
  others : ∀ q, q ≠ place → t.lookup q = s.lookup q ∨ s.lookup q = none
    ∧ t.lookup q = some .directory

/-- A file that is received where nothing was is added. -/
theorem Receives.addsFile {s t : Store} {p : FilePath} {bytes : ByteArray}
    {place : Location} (h : s.Receives p bytes place t)
    (hnew : s.lookup place = none) : s.AddsFile place t where
  isNew := hnew
  isFile := ⟨bytes, h.lookup⟩
  others q hq :=
    (h.others q hq).imp_right fun ⟨hnone, hmade, _⟩ => ⟨hnone, hmade⟩

namespace AddsFile

variable {s t : Store} {place : Location}

/-- What can be looked up stays. -/
theorem lookup (h : s.AddsFile place t) {q : Location} {c : Content}
    (hq : s.lookup q = some c) :
    t.lookup q = some c := by
  have hother : q ≠ place := by
    rintro rfl
    rw [h.isNew] at hq
    cases hq
  exact lookup_of_kept (h.others q hother) hq

theorem keepsDirectories (h : s.AddsFile place t) : s.KeepsDirectories t :=
  fun _ => h.lookup

theorem lookup_file_iff (h : s.AddsFile place t) {q : Location} :
    (∃ bytes, t.lookup q = some (.file bytes))
      ↔ q = place ∨ ∃ bytes, s.lookup q = some (.file bytes) := by
  constructor
  · rintro ⟨bytes, hq⟩
    by_cases hplace : q = place
    · exact .inl hplace
    · rcases h.others q hplace with hsame | ⟨_, hmade⟩
      · exact .inr ⟨bytes, hsame.symm.trans hq⟩
      · rw [hq] at hmade
        cases hmade
  · rintro (rfl | ⟨bytes, hq⟩)
    · exact h.isFile
    · exact ⟨bytes, h.lookup hq⟩

/-- What can be read stays. -/
theorem read (h : s.AddsFile place t) {p : FilePath} {bytes : ByteArray}
    (hp : s.read p = .ok bytes) :
    t.read p = .ok bytes := by
  unfold Store.read at hp ⊢
  split at hp
  · cases hp
  rename_i q hq
  rw [h.keepsDirectories.resolve hq]
  split at hp
  · rename_i bytes' hfile
    cases hp
    simp only [h.lookup hfile]
  · cases hp
  · cases hp

theorem holds (h : s.AddsFile place t) {p : FilePath} {written : Document Leaf}
    {es : List Entry} (hp : s.Holds p written es) : t.Holds p written es := by
  obtain ⟨bytes, hread, hnumbers, hd⟩ := writtenDocument_eq_ok.mp hp.reads
  obtain ⟨es', hholds⟩ :=
    exists_holds (writtenDocument_eq_ok.mpr ⟨bytes, h.read hread, hnumbers, hd⟩)
  -- the entries are those of the document
  cases hholds.entries_eq.symm.trans hp.entries_eq
  exact hholds

theorem checkFile (h : s.AddsFile place t) {p : FilePath} {n : Nat}
    (hp : s.checkFile p = .ok n) :
    t.checkFile p = .ok n ∧ t.entriesOfFile p = s.entriesOfFile p := by
  obtain ⟨written, es, hholds, hes, hn⟩ := checkFile_eq_ok.mp hp
  have hkept := h.holds hholds
  exact ⟨checkFile_eq_ok.mpr ⟨written, es, hkept, hes, hn⟩,
    hkept.entries.trans hholds.entries.symm⟩

/-- Below a directory the file is found beside those that were there. -/
theorem filesBelow_perm {base : Location} {names : List String}
    (h : s.AddsFile (base ++ names) t) (hbase : s.lookup base = some .directory)
    (hs : s.HasDistinctPlaces) (ht : t.HasDistinctPlaces) :
    (t.filesBelow base).Perm (names :: s.filesBelow base) := by
  have hne : names ≠ [] := by
    rintro rfl
    simpa [hbase] using h.isNew
  have hnot : names ∉ s.filesBelow base := by
    rw [hs.mem_filesBelow, h.isNew]
    simp
  refine (List.perm_ext_iff_of_nodup (ht.nodup_filesBelow base)
    (List.nodup_cons.mpr ⟨hnot, hs.nodup_filesBelow base⟩)).mpr fun found => ?_
  rw [List.mem_cons, ht.mem_filesBelow, hs.mem_filesBelow, h.lookup_file_iff,
    List.append_cancel_left_eq]
  constructor
  · rintro ⟨hfound, rfl | hbefore⟩
    · exact .inl rfl
    · exact .inr ⟨hfound, hbefore⟩
  · rintro (rfl | ⟨hfound, hbefore⟩)
    · exact ⟨hne, .inl rfl⟩
    · exact ⟨hfound, .inr hbefore⟩

end AddsFile

end Store

/-! ## One document more -/

/-- A directory has got a document, by the names that lead to it from there. -/
structure Store.AddsDocument (s : Store) (root : FilePath) (names : List String)
    (t : Store) : Prop where
  isDocument : FilePath.isDocumentName (names.getLastD "") = true
  isAdded : ∃ base, s.resolve root = .ok base ∧ s.AddsFile (base ++ names) t

/-- A directory that has got a document is opened with one more file. -/
theorem Corpus.files_perm_of_adds {s t : Store} {root : FilePath}
    {names : List String} {c : Corpus} (h : s.AddsDocument root names t)
    (hs : s.HasDistinctPlaces) (ht : t.HasDistinctPlaces)
    (hopen : open? s root = .ok c) :
    ∃ c', open? t root = .ok c'
      ∧ c'.files.Perm (root.below names :: c.files) := by
  obtain ⟨base, hroot, hbase, rfl⟩ := open?_eq_ok.mp hopen
  obtain ⟨base', hroot', hadds⟩ := h.isAdded
  cases hroot.symm.trans hroot'
  refine ⟨_, open?_eq_ok.mpr ⟨base, hadds.keepsDirectories.resolve hroot,
    hadds.lookup hbase, rfl⟩, ?_⟩
  have hfound := (hadds.filesBelow_perm hbase hs ht).filter
    fun parts => FilePath.isDocumentName (parts.getLastD "")
  have hdocument := h.isDocument
  rw [List.filter_cons_of_pos (by simpa using hdocument)] at hfound
  -- the files are sorted anew
  exact ((List.mergeSort_perm _ _).trans
    (hfound.trans ((List.mergeSort_perm _ _).symm.cons names))).map root.below

end LeafSurvey
