import LeafSurvey.Proofs.Additions
import LeafSurvey.Proofs.Totals

/-!
# Growing corpora

When a corpus gets one more document that passes its check, its survey still
succeeds and nothing that it has found is lost. Types alone may change, and only
in few ways: a type that fitted all values may have to give way to `string`, and
nulls alone, which were taken for strings, may get the type of the first values
among them.

* `plainType_of_subset`: what more entries do to a type;
* `entries_of_added`: the entries of the larger corpus are those of the file and
  those that were there;
* `job_of_added`: the report and the fields of the larger corpus.
-/

namespace LeafSurvey

/-! ## More entries -/

namespace Entries

variable {es es' : List Entry}

theorem HasTwoKinds.mono (h : HasTwoKinds es) (hsub : es ⊆ es') :
    HasTwoKinds es' := by
  obtain ⟨a, ha, b, hb, hkinds⟩ := h
  exact ⟨a, hsub ha, b, hsub hb, hkinds⟩

theorem isPlural_of_subset (hsub : es ⊆ es') (h : isPlural es = true) :
    isPlural es' = true := by
  obtain ⟨e, he, hmark⟩ := isPlural_iff.mp h
  exact isPlural_iff.mpr ⟨e, hsub he, hmark⟩

theorem isMixed_of_subset (hsub : es ⊆ es') (h : isMixed es = true) :
    isMixed es' = true :=
  isMixed_iff.mpr ((isMixed_iff.mp h).mono hsub)

theorem sharing_subset (hsub : es ⊆ es') (path : Path) :
    sharing path es ⊆ sharing path es' :=
  List.filter_subset _ hsub

theorem namedPaths_subset (hsub : es ⊆ es') :
    namedPaths es ⊆ namedPaths es' := by
  intro path hpath
  obtain ⟨hne, e, he, hshares⟩ := mem_namedPaths.mp hpath
  exact mem_namedPaths.mpr ⟨hne, e, hsub he, hshares⟩

/-- A type that was inferred from a value stays or becomes `string`. One that
was inferred from several kinds of value stays. -/
theorem plainType_of_subset (hsub : es ⊆ es') :
    plainType es' = plainType es
      ∨ (plainType es = .number ∨ plainType es = .boolean)
          ∧ plainType es' = .string
      ∨ plainType es = .string ∧ ¬HasValue es := by
  rcases plainType_cases es with ⟨kind, hvalue, hold, ⟨e, he, hkind⟩, _⟩
    | ⟨hold, htwo | hnone⟩
  · rcases plainType_cases es' with ⟨kind', _, hnew, _, hall⟩ | ⟨hnew, _⟩
    · -- the entry that decided before is still there
      have hsame : kind = kind' := hkind ▸ hall e (hsub he) (hkind ▸ hvalue)
      exact .inl (by rw [hold, hnew, hsame])
    · cases kind with
      | null => exact absurd rfl hvalue
      | string => exact .inl (hnew.trans hold.symm)
      | number => exact .inr (.inl ⟨.inl hold, hnew⟩)
      | boolean => exact .inr (.inl ⟨.inr hold, hnew⟩)
  · exact .inl ((plainType_of_hasTwoKinds (htwo.mono hsub)).trans hold.symm)
  · exact .inr (.inr ⟨hold, hnone⟩)

/-- Among more entries no fewer named paths pass a test that more entries do not
undo. -/
theorem countP_namedPaths_le (hsub : es ⊆ es') {test : List Entry → Bool}
    (htest : ∀ {before after : List Entry},
      before ⊆ after → test before = true → test after = true) :
    ((namedPaths es).countP fun path => test (sharing path es))
      ≤ (namedPaths es').countP fun path => test (sharing path es') := by
  calc ((namedPaths es).countP fun path => test (sharing path es))
      ≤ (namedPaths es).countP fun path => test (sharing path es') :=
        List.countP_mono_left fun path _ h => htest (sharing_subset hsub path) h
    _ ≤ (namedPaths es').countP fun path => test (sharing path es') :=
        ((nodup_namedPaths es).subperm (namedPaths_subset hsub)).countP_le _

end Entries

/-- A field before and after its path has got more entries. -/
structure Field.Grows (before after : List Entry) (old new : Field) : Prop where
  name : new.name = old.name
  label : new.label = old.label
  set_of_set : old.type.isSet = true → new.type.isSet = true
  mixed_of_mixed : Entries.HasTwoKinds before → Entries.HasTwoKinds after
  base : new.type.base = old.type.base
    ∨ (old.type.base = .number ∨ old.type.base = .boolean)
        ∧ new.type.base = .string
    ∨ old.type.base = .string ∧ ¬Entries.HasValue before

theorem Field.grows_ofPath {es es' : List Entry} {naming naming' : Naming}
    (hsub : es ⊆ es') (hnaming : naming'.delimiter = naming.delimiter)
    (path : Path) :
    Grows (Entries.sharing path es) (Entries.sharing path es')
      (ofPath naming es path)
      (ofPath naming' es' path) := by
  have hshared := Entries.sharing_subset hsub path
  refine ⟨congrArg path.joined hnaming, rfl, ?_, fun h => h.mono hshared, ?_⟩
  · show (Entries.fieldType _).isSet = true → (Entries.fieldType _).isSet = true
    rw [Entries.isSet_fieldType, Entries.isSet_fieldType]
    exact Entries.isPlural_of_subset hshared
  · show (Entries.fieldType _).base = (Entries.fieldType _).base ∨ _
    simp only [ofPath, ofGroup, Entries.base_fieldType]
    exact Entries.plainType_of_subset hshared

/-- A report before and after one more file with a number of leaves. -/
structure Report.Grows (leaves : Nat) (old new : Report) : Prop where
  files : new.files = old.files + 1
  tokens : new.tokens = old.tokens + leaves
  entries : new.entries = old.entries + leaves
  fields : old.fields ≤ new.fields
  sets : old.sets ≤ new.sets
  mixed : old.mixed ≤ new.mixed

theorem Report.grows_ofGroups {es es' : List Entry} (hsub : es ⊆ es')
    {files leaves : Nat} (hlength : es'.length = es.length + leaves) :
    Grows leaves (ofGroups files es.length es.length (Groups.ofEntries es))
      (ofGroups (files + 1) es'.length es'.length (Groups.ofEntries es')) := by
  rw [ofGroups_ofEntries, ofGroups_ofEntries]
  refine ⟨rfl, hlength, hlength, ?_, ?_, ?_⟩
  · exact ((Entries.nodup_namedPaths es).subperm
      (Entries.namedPaths_subset hsub)).length_le
  · exact Entries.countP_namedPaths_le hsub Entries.isPlural_of_subset
  · exact Entries.countP_namedPaths_le hsub Entries.isMixed_of_subset

/-! ## More files -/

/-- A file that is added to files which pass their checks and keep their entries
adds its own entries. -/
theorem Corpus.entries_of_added {c c' : Corpus} {s t : Store} {file : FilePath}
    {n : Nat} {es : List Entry} (hfiles : c'.files.Perm (file :: c.files))
    (hadded : t.checkFile file = .ok n)
    (hkept : ∀ f ∈ c.files, t.entriesOfFile f = s.entriesOfFile f)
    (hes : c.entries s = .ok es) :
    ∃ added es', added.length = n ∧ c'.entries t = .ok es'
      ∧ es'.Perm (added ++ es) := by
  obtain ⟨_, added, hholds, hlength, _⟩ := Store.checkFile_eq_ok.mp hadded
  obtain ⟨parts, hparts, hflat⟩ := Outcome.bind_eq_ok.mp hes
  cases hflat
  have hlarger : (file :: c.files).mapM t.entriesOfFile
      = .ok (added :: parts) := by
    rw [Outcome.mapM_eq_ok, List.map_cons, List.map_cons, hholds.entries,
      List.map_congr_left hkept, Outcome.mapM_eq_ok.mp hparts]
  -- the file may stand anywhere among the others
  obtain ⟨parts', hparts', hmoved⟩ :=
    Outcome.exists_mapM_of_perm hfiles.symm hlarger
  exact ⟨added, parts'.flatten, hlength, entries_eq_ok hparts',
    hmoved.symm.flatten⟩

namespace Survey

/-- A corpus that is surveyed and gets one more document, at a new place and
with a check that it passes, is surveyed again. The report counts one more file
and the leaves of the document, and no fewer fields, sets and mixed paths. Every
named path keeps its field with name and label; a set stays a set and a mixed
path stays mixed. The base type of a field stays, or it was `number` or
`boolean` and becomes `string`, or it was `string` for want of a value. -/
theorem job_of_added {c : Corpus} {settings : Settings} {m m' : Machine}
    {survey : Survey} {root : FilePath} {names : List String} {n : Nat}
    (htexts : settings.HasTexts) (hs : m.store.HasDistinctPlaces)
    (ht : m'.store.HasDistinctPlaces)
    (hopen : Corpus.open? m.store root = .ok c)
    (h : ((job c settings).runOn m).1 = .ok survey)
    (hadds : m.store.AddsDocument root names m'.store)
    (hcheck : m'.store.checkFile (root.below names) = .ok n)
    (hnext : m'.console.interruptsNext = false) :
    ∃ c' survey' es es' naming naming',
      Corpus.open? m'.store root = .ok c'
      ∧ c'.files.Perm (root.below names :: c.files)
      ∧ ((job c' settings).runOn m').1 = .ok survey'
      ∧ Report.Grows n survey.report survey'.report
      ∧ c.entries m.store = .ok es ∧ c'.entries m'.store = .ok es'
      ∧ survey.draft.fields.Perm
          ((Entries.namedPaths es).map (Field.ofPath naming es))
      ∧ survey'.draft.fields.Perm
          ((Entries.namedPaths es').map (Field.ofPath naming' es'))
      ∧ ∀ path ∈ Entries.namedPaths es, path ∈ Entries.namedPaths es'
          ∧ Field.Grows (Entries.sharing path es) (Entries.sharing path es')
              (Field.ofPath naming es path)
              (Field.ofPath naming' es' path) := by
  obtain ⟨c', hopen', hfiles⟩ := Corpus.files_perm_of_adds hadds hs ht hopen
  obtain ⟨base, _, hfile⟩ := hadds.isAdded
  -- every file of the smaller corpus passes its check in both stores, with the
  -- same entries
  have hpass := checkFiles_eq_ok.mp (checkFiles_of_job h)
  have hkept : ∀ file ∈ c.files, m'.store.Passes file
      ∧ m'.store.entriesOfFile file = m.store.entriesOfFile file := by
    intro file hmem
    obtain ⟨k, hk⟩ := hpass file hmem
    exact ⟨⟨k, (hfile.checkFile hk).1⟩, (hfile.checkFile hk).2⟩
  have hpass' : ∀ file ∈ c'.files, m'.store.Passes file := by
    intro file hmem
    rcases List.mem_cons.mp (hfiles.mem_iff.mp hmem) with rfl | hold
    · exact ⟨n, hcheck⟩
    · exact (hkept file hold).1
  obtain ⟨survey', hanswer⟩ := answer_of_passes htexts hpass'
  rw [hnext] at hanswer
  obtain ⟨es, naming, hassembled⟩ := assembled_of_job h
  obtain ⟨es', naming', hassembled'⟩ := assembled_of_job hanswer
  obtain ⟨added, _, hadded, hes', hperm⟩ :=
    Corpus.entries_of_added hfiles hcheck (fun file hmem => (hkept file hmem).2)
      hassembled.entries
  cases hes'.symm.trans hassembled'.entries
  have hsub : es ⊆ es' :=
    fun e he => hperm.mem_iff.mpr (List.mem_append_right added he)
  have hlength : es'.length = es.length + n := by
    rw [hperm.length_eq, List.length_append, hadded, Nat.add_comm]
  refine ⟨c', survey', es, es', naming, naming', hopen', hfiles, hanswer, ?_,
    hassembled.entries, hassembled'.entries, hassembled.fields_perm,
    hassembled'.fields_perm, fun path hpath => ?_⟩
  · rw [hassembled.report, hassembled'.report, hfiles.length_eq,
      List.length_cons]
    exact Report.grows_ofGroups hsub hlength
  · have hpath' := Entries.namedPaths_subset hsub hpath
    refine ⟨hpath', Field.grows_ofPath hsub ?_ path⟩
    rw [hassembled.delimiter_eq htexts hpath,
      hassembled'.delimiter_eq htexts hpath']

end Survey

/-! ## A number among texts -/

/-- A store with one document, which has a number under a key. -/
def Store.numbered : Store :=
  ofTexts [("b.json", "\x7b\"a\": 1\x7d")]

/-- A document with a text in an array under that key, and a null under
another. -/
def Store.laterText : String :=
  "\x7b\"a\": [\"x\"], \"b\": null\x7d"

/-- The store with the second document in a directory of its own. -/
def Store.renumbered : Store :=
  ⟨[(["b.json"], .file "\x7b\"a\": 1\x7d".toUTF8), (["c"], .directory),
    (["c", "a.json"], .file laterText.toUTF8)]⟩

theorem Store.place_numbered :
    numbered.place ⟨.working, ["c", "a.json"]⟩ laterText.toUTF8
      = (.ok (), renumbered) :=
  rfl

theorem Store.addsDocument_renumbered :
    numbered.AddsDocument ⟨.working, []⟩ ["c", "a.json"] renumbered := by
  obtain ⟨place, hreceives⟩ := receives_place place_numbered
  have hresolve : renumbered.resolve ⟨.working, ["c", "a.json"]⟩
      = .ok ["c", "a.json"] :=
    rfl
  cases hreceives.resolve.symm.trans hresolve
  exact ⟨by decide, [], rfl, hreceives.addsFile rfl⟩

theorem Store.checkFile_numbered :
    numbered.checkFile ⟨.working, ["b.json"]⟩ = .ok 1 :=
  checkFile_of_text (d := .object [("a", .leaf (.integer 1))]) rfl
    (Json.skipMark_toUTF8 rfl rfl) rfl
    rfl (by decide)

theorem Store.checkFile_renumbered :
    renumbered.checkFile ⟨.working, ["c", "a.json"]⟩ = .ok 2 :=
  checkFile_of_text
    (d := .object [("a", .array [.leaf (.text "x")]), ("b", .leaf .null)]) rfl
    (Json.skipMark_toUTF8 rfl rfl) rfl rfl (by decide)

/-- Both corpora are surveyed, the larger one with two leaves more. -/
theorem Survey.job_of_renumbered :
    ∃ c' survey survey', Corpus.open? .renumbered ⟨.working, []⟩ = .ok c'
      ∧ ((job (.ofNames ["b.json"]) .usual).runOn
          ⟨.numbered, .fresh none, []⟩).1 = .ok survey
      ∧ ((job c' .usual).runOn ⟨.renumbered, .fresh none, []⟩).1 = .ok survey'
      ∧ survey.report.files = 1 ∧ survey'.report.files = 2
      ∧ survey'.report.tokens = survey.report.tokens + 2 := by
  obtain ⟨survey, hsurvey⟩ :=
    exists_survey_of_passes ⟨1, Store.checkFile_numbered⟩
  have hdistinct : Store.numbered.HasDistinctPlaces := by decide
  have hdistinct' :=
    hdistinct.place ⟨.working, ["c", "a.json"]⟩ Store.laterText.toUTF8
  rw [Store.place_numbered] at hdistinct'
  obtain ⟨c', survey', _, _, _, _, hopen, _, hanswer', hreport, _⟩ :=
    @job_of_added _ .usual ⟨.numbered, .fresh none, []⟩
      ⟨.renumbered, .fresh none, []⟩ _ _ _ _
      ⟨rfl, rfl⟩ hdistinct hdistinct'
      (Corpus.open?_of_singleton rfl rfl rfl) hsurvey
      Store.addsDocument_renumbered Store.checkFile_renumbered rfl
  obtain ⟨es, naming, hassembled⟩ := assembled_of_job hsurvey
  have hfiles : survey.report.files = 1 := by
    rw [hassembled.report]
    rfl
  refine ⟨c', survey, survey', hopen, hsurvey, hanswer', hfiles,
    ?_, hreport.tokens⟩
  rw [hreport.files, hfiles]

end LeafSurvey
