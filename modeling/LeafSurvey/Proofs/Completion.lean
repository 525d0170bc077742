import LeafSurvey.Survey
import LeafSurvey.Proofs.Coverage
import LeafSurvey.Proofs.Discovery
import LeafSurvey.Proofs.Files
import LeafSurvey.Proofs.Jobs

/-!
# When a survey succeeds

A survey first checks every file and then reads all of them again: for the
totals, for the groups and for the coverage of the fields. With a text as
delimiter and a text as locale, only the first part can fail.

* `assemble_eq_ok`: all that is known of a survey that has been assembled;
* `exists_assembled`: files that have passed their checks can be assembled;
* `job_ends_with_first_failure`: a survey succeeds exactly if every file passes
  its check, and else fails as the check of the first file that does not.
-/

namespace LeafSurvey

/-! ## Texts as settings -/

namespace Value

/-- Whether a value is a text, with or without halves of surrogate pairs. -/
def isText : Value → Bool
  | text _ => true
  | points _ => true
  | _ => false

end Value

namespace Settings

/-- The delimiter and the locale are texts. -/
structure HasTexts (settings : Settings) : Prop where
  delimiter : settings.delimiter.isText = true
  locale : settings.locale.isText = true

/-- The naming of groups with texts as settings. -/
def naming (settings : Settings) (groups : Groups) : Naming :=
  if groups.named.isEmpty then ⟨usualDelimiter, settings.locale⟩
  else ⟨settings.delimiter.plain, settings.locale⟩

theorem delimiterText?_of_isText {v : Value} (h : v.isText = true) :
    delimiterText? v = .ok v.plain := by
  cases v with
  | text d => rfl
  | points codes => rfl
  | _ => cases h

namespace HasTexts

variable {settings : Settings}

theorem localeKey?_eq (h : settings.HasTexts) :
    settings.localeKey? = .ok settings.locale := by
  have hkey : settings.locale.isKey = true := by
    have hlocale := h.locale
    cases hv : settings.locale with
    | text d => rfl
    | points codes => rfl
    | _ =>
      rw [hv] at hlocale
      cases hlocale
  rw [localeKey?, if_pos hkey]

theorem naming?_eq (h : settings.HasTexts) (groups : Groups) :
    settings.naming? groups = .ok (settings.naming groups) := by
  rw [naming?, naming]
  by_cases hnamed : groups.named.isEmpty = true
  · rw [if_pos hnamed, if_pos hnamed]
    rfl
  · rw [if_neg hnamed, if_neg hnamed, delimiterText?_of_isText h.delimiter,
      h.localeKey?_eq]
    rfl

theorem exists_draft (h : settings.HasTexts) (fields : List Field) :
    ∃ draft, Draft.of? settings fields = .ok draft :=
  ⟨_, Outcome.bind_eq_ok.mpr ⟨settings.locale, h.localeKey?_eq, rfl⟩⟩

end HasTexts

end Settings

/-- A draft holds the fields that it is made for. -/
theorem Draft.fields_of?_eq_ok {settings : Settings} {fields : List Field}
    {draft : Draft} (h : Draft.of? settings fields = .ok draft) :
    draft.fields = fields := by
  obtain ⟨_, _, h⟩ := Outcome.bind_eq_ok.mp h
  cases h
  rfl

/-- The schema table of a corpus is that of its entries, where the delimiter is
a text. -/
theorem Corpus.schemaTable_of_entries {c : Corpus} {delimiter : Value}
    {s : Store} {es : List Entry} (htext : delimiter.isText = true)
    (hes : c.entries s = .ok es) :
    c.schemaTable delimiter s
      = .ok (schemaTableOf delimiter.plain (Groups.ofEntries es)) := by
  have hgroups : c.groups s = .ok (Groups.ofEntries es) :=
    Outcome.bind_eq_ok.mpr ⟨es, hes, rfl⟩
  have hplain : schemaDelimiter? (Groups.ofEntries es) delimiter
      = .ok delimiter.plain := by
    cases delimiter with
    | bytes octets => cases htext
    | _ => exact Settings.delimiterText?_of_isText htext
  exact Outcome.bind_eq_ok.mpr ⟨_, hgroups,
    Outcome.bind_eq_ok.mpr ⟨_, hplain, rfl⟩⟩

/-! ## All files pass -/

namespace Store

/-- A file passes its check. -/
def Passes (s : Store) (file : FilePath) : Prop :=
  ∃ n, s.checkFile file = .ok n

theorem Holds.passes {s : Store} {file : FilePath} {written : Document Leaf}
    {es : List Entry} (h : s.Holds file written es)
    (hlost : written.lost [] false = []) : s.Passes file :=
  ⟨_, checkFile_eq_ok.mpr ⟨written, es, h, h.length_eq_iff.mpr hlost, rfl⟩⟩

/-- A file without repeated keys has the entries of its leaves, and passes. -/
theorem exists_holds_of_distinct {s : Store} {file : FilePath}
    {d : Document Leaf} (h : s.writtenDocument file = .ok d)
    (hkeys : d.hasDistinctKeys = true) :
    ∃ es, s.entriesOfFile file = .ok es
      ∧ (d.leaves [] false).mapM Placed.entry? = .ok es
      ∧ s.Passes file := by
  obtain ⟨es, hholds⟩ := exists_holds h
  have hentries := hholds.entries_eq
  rw [Document.collapse_eq_self hkeys] at hentries
  exact ⟨es, hholds.entries, hentries,
    hholds.passes (Document.lost_eq_nil [] false hkeys)⟩

/-- The numbers of a file are taken in, as far as the file can be read. -/
def TakesNumbers (s : Store) (file : FilePath) : Prop :=
  ∀ bytes, s.read file = .ok bytes → Json.refusedNumber? bytes = none

/-- What a file that does not pass fails with: it cannot be read, or a number is
not taken in, or it holds no document, or has fewer entries than scalar
tokens. -/
theorem checkFile_eq_error {s : Store} {file : FilePath} {failure : Failure}
    (h : s.checkFile file = .error failure) :
    (∃ fault, s.read file = .error fault ∧ failure = .file fault)
      ∨ (∃ bytes fault,
          s.read file = .ok bytes ∧ Json.refusedNumber? bytes = some fault
          ∧ failure = .number fault)
      ∨ (∃ fault, failure = .document file fault)
      ∨ ∃ entries tokens, entries < tokens
          ∧ failure = .leafMismatch file.name entries tokens := by
  cases hw : s.writtenDocument file with
  | ok written =>
    obtain ⟨es, hholds⟩ := exists_holds hw
    rw [hholds.checkFile] at h
    have hle := hholds.leafCount_eq
    split at h
    · cases h
    · rename_i hne
      cases h
      exact .inr (.inr (.inr ⟨es.length, written.leafCount, by omega, rfl⟩))
  | error cause =>
    cases (fails_of_written hw).check.symm.trans h
    rcases fault_of_written_error hw with
      hfile | ⟨bytes, hread, ⟨fault, hnumber, hcause⟩ | hfault⟩
    · exact .inl hfile
    · exact .inr (.inl ⟨bytes, fault, hread, hnumber, hcause⟩)
    · obtain ⟨fault, _, _, hcause⟩ := hfault
      exact .inr (.inr (.inl ⟨fault, hcause⟩))

/-- Where the numbers of a file are taken in, its check knows no other
failures. -/
theorem TakesNumbers.checkFile_eq_error {s : Store} {file : FilePath}
    {failure : Failure} (hnumbers : s.TakesNumbers file)
    (h : s.checkFile file = .error failure) :
    (∃ fault, s.read file = .error fault ∧ failure = .file fault)
      ∨ (∃ fault, failure = .document file fault)
      ∨ ∃ entries tokens, entries < tokens
          ∧ failure = .leafMismatch file.name entries tokens := by
  rcases Store.checkFile_eq_error h with
    hfile | ⟨bytes, fault, hread, hnumber, _⟩ | hother
  · exact .inl hfile
  · cases (hnumbers bytes hread).symm.trans hnumber
  · exact .inr hother

/-- A number that is not taken in ends the check of its file. -/
theorem checkFile_of_not_takesNumbers {s : Store} {file : FilePath}
    (h : ¬s.TakesNumbers file) :
    ∃ fault, s.checkFile file = .error (.number fault) := by
  simp only [TakesNumbers, not_forall] at h
  obtain ⟨bytes, hread, hrefused⟩ := h
  obtain ⟨fault, hfault⟩ := Option.ne_none_iff_exists'.mp hrefused
  exact ⟨fault, (fails_of_written
    ((writtenDocument_eq_error hread).mpr (.inl ⟨fault, hfault, rfl⟩))).check⟩

/-- Files that pass have together as many entries as scalar tokens. -/
theorem countAll_of_passes {s : Store} {files : List FilePath}
    (h : ∀ file ∈ files, s.Passes file) :
    ∃ parts, files.mapM s.entriesOfFile = .ok parts
      ∧ s.countAll files = .ok parts.flatten.length := by
  induction files with
  | nil => exact ⟨[], rfl, rfl⟩
  | cons file rest ih =>
    -- both counts grow by the common count of the file
    obtain ⟨⟨n, hn⟩, hrest⟩ := List.forall_mem_cons.mp h
    obtain ⟨written, es, hholds, hes, hcount⟩ := checkFile_eq_ok.mp hn
    obtain ⟨parts, hparts, htotal⟩ := ih hrest
    refine ⟨es :: parts, ?_, ?_⟩
    · rw [Outcome.mapM_eq_ok, List.map_cons, List.map_cons, hholds.entries,
        Outcome.mapM_eq_ok.mp hparts]
    · have hsum : written.leafCount + parts.flatten.length
          = (es :: parts).flatten.length := by
        rw [List.flatten_cons, List.length_append, hes, hcount]
      rw [countAll, hholds.tokens, htotal, ← hsum]
      rfl

/-- The check of the totals succeeds for as many entries as scalar tokens. -/
theorem checkTotal_eq_ok {s : Store} {files : List FilePath} {es : List Entry}
    {total : Nat} :
    s.checkTotal files (.ok es) = .ok total
      ↔ s.countAll files = .ok es.length ∧ es.length = total := by
  unfold checkTotal
  constructor
  · intro h
    obtain ⟨tokens, htokens, h⟩ := Outcome.bind_eq_ok.mp h
    change (if es.length = tokens then Except.ok tokens else _) = _ at h
    split at h
    · rename_i heq
      cases h
      exact ⟨heq ▸ htokens, heq⟩
    · cases h
  · rintro ⟨htokens, rfl⟩
    refine Outcome.bind_eq_ok.mpr ⟨es.length, htokens, ?_⟩
    exact if_pos rfl

end Store

namespace Survey

/-! ## What follows the checks -/

/-- A survey as it follows from entries that are as many as the scalar tokens,
under a naming. -/
structure Assembled (c : Corpus) (settings : Settings) (s : Store)
    (es : List Entry) (naming : Naming) (survey : Survey) : Prop where
  entries : c.entries s = .ok es
  tokens : s.countAll c.files = .ok es.length
  naming? : settings.naming? (Groups.ofEntries es) = .ok naming
  draft : Draft.of? settings (Field.ofGroups naming (Groups.ofEntries es))
    = .ok survey.draft
  report : survey.report
    = Report.ofGroups c.files.length es.length es.length (Groups.ofEntries es)

/-- Of all that follows the checks of the files, the coverage check needs no
premise: the fields built from entries cover them. -/
theorem assemble_eq_ok {c : Corpus} {settings : Settings} {s : Store}
    {survey : Survey} :
    assemble c settings s = .ok survey
      ↔ ∃ es naming, Assembled c settings s es naming survey := by
  unfold assemble
  constructor
  · intro h
    obtain ⟨total, htotal, h⟩ := Outcome.bind_eq_ok.mp h
    obtain ⟨groups, hgroups, h⟩ := Outcome.bind_eq_ok.mp h
    obtain ⟨naming, hnaming, h⟩ := Outcome.bind_eq_ok.mp h
    obtain ⟨es, hes, h⟩ := Outcome.bind_eq_ok.mp h
    obtain ⟨_, _, h⟩ := Outcome.bind_eq_ok.mp h
    obtain ⟨draft, hdraft, h⟩ := Outcome.bind_eq_ok.mp h
    -- totals, groups and coverage read the same files, so they speak of the
    -- same entries
    rw [hes, Store.checkTotal_eq_ok] at htotal
    obtain ⟨htokens, rfl⟩ := htotal
    rw [Corpus.groups, hes] at hgroups
    cases hgroups
    cases h
    refine ⟨es, naming, hes, htokens, hnaming, hdraft, ?_⟩
    rw [Groups.entryCount_ofEntries]
  · rintro ⟨es, naming, h⟩
    have htotal := Store.checkTotal_eq_ok.mpr ⟨h.tokens, rfl⟩
    have hgroups : c.groups s = .ok (Groups.ofEntries es) :=
      Outcome.bind_eq_ok.mpr ⟨es, h.entries, rfl⟩
    have hreport := h.report
    refine Outcome.bind_eq_ok.mpr ⟨es.length, h.entries ▸ htotal, ?_⟩
    refine Outcome.bind_eq_ok.mpr ⟨_, hgroups, ?_⟩
    refine Outcome.bind_eq_ok.mpr ⟨naming, h.naming?, ?_⟩
    refine Outcome.bind_eq_ok.mpr ⟨es, h.entries, ?_⟩
    refine Outcome.bind_eq_ok.mpr ⟨(), Coverage.check_ofEntries naming es, ?_⟩
    refine Outcome.bind_eq_ok.mpr ⟨survey.draft, h.draft, ?_⟩
    rw [Groups.entryCount_ofEntries, ← h.report]
    rfl

/-- Where a path is to be named, the names are joined by the delimiter of the
settings. -/
theorem Assembled.delimiter_eq {c : Corpus} {settings : Settings} {s : Store}
    {es : List Entry} {naming : Naming} {survey : Survey}
    (h : Assembled c settings s es naming survey) (htexts : settings.HasTexts)
    {path : Path} (hpath : path ∈ Entries.namedPaths es) :
    naming.delimiter = settings.delimiter.plain := by
  have hnamed : (Groups.ofEntries es).named.isEmpty ≠ true := by
    rw [ne_eq, List.isEmpty_iff, Groups.named_ofEntries_eq_nil]
    exact List.ne_nil_of_mem hpath
  have hnaming := Except.ok.inj (h.naming?.symm.trans (htexts.naming?_eq _))
  rw [hnaming, Settings.naming, if_neg hnamed]

/-- Files that have all passed their checks can be assembled when the settings
are texts, whatever the delimiter joins. -/
theorem exists_assembled {c : Corpus} {settings : Settings} {s : Store}
    (htexts : settings.HasTexts) (hpass : ∀ file ∈ c.files, s.Passes file) :
    ∃ survey, assemble c settings s = .ok survey := by
  obtain ⟨parts, hparts, htotal⟩ := Store.countAll_of_passes hpass
  have hes : c.entries s = .ok parts.flatten :=
    Outcome.bind_eq_ok.mpr ⟨parts, hparts, rfl⟩
  obtain ⟨draft, hdraft⟩ :=
    htexts.exists_draft
      (Field.ofGroups (settings.naming (Groups.ofEntries parts.flatten))
      (Groups.ofEntries parts.flatten))
  exact ⟨⟨_, draft⟩, assemble_eq_ok.mpr
    ⟨parts.flatten, _, hes, htotal, htexts.naming?_eq _, hdraft, rfl⟩⟩

/-! ## The whole survey -/

theorem checkFiles_eq_ok {c : Corpus} {s : Store} :
    checkFiles c s = .ok () ↔ ∀ file ∈ c.files, s.Passes file := by
  rw [checkFiles, Outcome.forM_eq_ok]
  simp only [Outcome.discard_eq_ok, Store.Passes]

/-- The checks of files fail as that of the first file which does not pass. -/
theorem checkFiles_eq_error {c : Corpus} {s : Store} {failure : Failure} :
    checkFiles c s = .error failure
      ↔ ∃ front file rest, c.files = front ++ file :: rest
          ∧ (∀ f ∈ front, s.Passes f)
        ∧ s.checkFile file = .error failure := by
  rw [checkFiles, Outcome.forM_eq_error]
  simp only [Outcome.discard_eq_ok, Outcome.discard_eq_error, Store.Passes]

/-- A survey answers as its two parts do, unless it is interrupted at the notice
between them. -/
theorem answer_runOn_job (c : Corpus) (settings : Settings) (m : Machine) :
    ((job c settings).runOn m).1
      = (do
          checkFiles c m.store
          if m.console.interruptsNext then throw .interrupted
          assemble c settings m.store) := by
  rw [job, Job.runOn_bind, Job.runOn_reading]
  cases checkFiles c m.store with
  | error failure => rfl
  | ok _ =>
    show ((Job.notify _ >>= fun _ => Job.reading (assemble c settings)).runOn
      m).1 = _
    rw [Job.runOn_bind,
      Job.runOn_notify_of_laysOut (m.console.laysOut_of_closed rfl)]
    cases m.console.interruptsNext with
    | true => rfl
    | false =>
      show ((Job.reading (assemble c settings)).runOn _).1 = _
      rw [Job.runOn_reading]
      rfl

/-- A survey that succeeds has been assembled. -/
theorem assembled_of_job {c : Corpus} {settings : Settings} {m : Machine}
    {survey : Survey} (h : ((job c settings).runOn m).1 = .ok survey) :
    ∃ es naming, Assembled c settings m.store es naming survey := by
  rw [answer_runOn_job] at h
  obtain ⟨_, _, h⟩ := Outcome.bind_eq_ok.mp h
  cases hinterrupts : m.console.interruptsNext with
  | false =>
    rw [hinterrupts] at h
    exact assemble_eq_ok.mp h
  | true =>
    rw [hinterrupts] at h
    cases h

theorem checkFiles_of_job {c : Corpus} {settings : Settings} {m : Machine}
    {survey : Survey} (h : ((job c settings).runOn m).1 = .ok survey) :
    checkFiles c m.store = .ok () := by
  rw [answer_runOn_job] at h
  obtain ⟨_, hfiles, _⟩ := Outcome.bind_eq_ok.mp h
  exact hfiles

/-- Once all files have passed, only an interrupt keeps a survey from
succeeding. -/
theorem answer_of_passes {c : Corpus} {settings : Settings} {m : Machine}
    (htexts : settings.HasTexts)
    (hpass : ∀ file ∈ c.files, m.store.Passes file) :
    ∃ survey, ((job c settings).runOn m).1
      = if m.console.interruptsNext then .error .interrupted
          else .ok survey := by
  obtain ⟨survey, hsurvey⟩ := exists_assembled htexts hpass
  refine ⟨survey, ?_⟩
  rw [answer_runOn_job, checkFiles_eq_ok.mpr hpass, hsurvey]
  cases m.console.interruptsNext with
  | true => rfl
  | false => rfl

/-- One file that passes is a corpus that is surveyed. -/
theorem exists_survey_of_passes {s : Store} {name : String}
    (h : s.Passes ⟨.working, [name]⟩) :
    ∃ survey, ((job (.ofNames [name]) .usual).runOn ⟨s, .fresh none, []⟩).1
      = .ok survey := by
  have hpass : ∀ file ∈ (Corpus.ofNames [name]).files, s.Passes file := by
    simpa [Corpus.ofNames] using h
  exact answer_of_passes ⟨rfl, rfl⟩ hpass

/-- A file that does not pass ends the survey before its notice. -/
theorem answer_of_checkFiles_error {c : Corpus} {settings : Settings}
    {m : Machine} {failure : Failure}
    (h : checkFiles c m.store = .error failure) :
    ((job c settings).runOn m).1 = .error failure := by
  rw [answer_runOn_job, h]
  rfl

/-- A survey succeeds exactly if every file passes its check and nothing
interrupts it. Otherwise it fails as the check of the first file that does not
pass, or by the interrupt once all have passed. Where numbers are taken in, the
checks of files fail only for what cannot be read, for what is no document and
for lost leaves, and elsewhere for the number too; so no failure of the totals,
the fields, the coverage or the leaves is ever met. -/
theorem job_ends_with_first_failure (c : Corpus) (settings : Settings)
    (m : Machine) (htexts : settings.HasTexts) :
    ((∃ survey, ((job c settings).runOn m).1 = .ok survey)
        ↔ (∀ file ∈ c.files, m.store.Passes file)
            ∧ m.console.interruptsNext = false)
      ∧ (∀ failure, ((job c settings).runOn m).1 = .error failure
        ↔ (∃ front file rest, c.files = front ++ file :: rest
            ∧ (∀ f ∈ front, m.store.Passes f)
            ∧ m.store.checkFile file = .error failure)
          ∨ (∀ file ∈ c.files, m.store.Passes file)
              ∧ m.console.interruptsNext = true
              ∧ failure = .interrupted)
      ∧ (∀ file ∈ c.files, m.store.TakesNumbers file →
          ∀ failure, m.store.checkFile file = .error failure →
          (∃ fault, m.store.read file = .error fault ∧ failure = .file fault)
            ∨ (∃ fault, failure = .document file fault)
            ∨ ∃ entries tokens, entries < tokens
              ∧ failure = .leafMismatch file.name entries tokens)
      ∧ ∀ file ∈ c.files, ¬m.store.TakesNumbers file →
          ∃ fault, m.store.checkFile file = .error (.number fault) := by
  have hkinds : ∀ file ∈ c.files, m.store.TakesNumbers file →
      ∀ failure, m.store.checkFile file = .error failure → _ :=
    fun _ _ hnumbers _ h => hnumbers.checkFile_eq_error h
  have hnumber : ∀ file ∈ c.files, ¬m.store.TakesNumbers file →
      ∃ fault, m.store.checkFile file = .error (.number fault) :=
    fun _ _ hnot => Store.checkFile_of_not_takesNumbers hnot
  rw [← checkFiles_eq_ok]
  simp only [← checkFiles_eq_error]
  -- a check that fails is the answer; after the checks only the interrupt is
  -- left to fail
  cases hfiles : checkFiles c m.store with
  | error cause =>
    rw [answer_of_checkFiles_error hfiles]
    refine ⟨?_, fun failure => ?_, hkinds, hnumber⟩
    · simp
    · simp
  | ok _ =>
    obtain ⟨survey, hanswer⟩ :=
      answer_of_passes htexts (checkFiles_eq_ok.mp hfiles)
    rw [hanswer]
    refine ⟨?_, fun failure => ?_, hkinds, hnumber⟩
    · cases m.console.interruptsNext with
      | true => simp
      | false => simp
    · cases m.console.interruptsNext with
      | true => simp [eq_comm]
      | false => simp

end Survey

/-! ## Two paths with one name -/

/-- An object with two paths that the usual delimiter joins to one name. -/
def Store.sharedNameText : String :=
  "\x7b\"a___b\": 1, \"a\": \x7b\"b\": 2\x7d\x7d"

/-- A store with one document, which holds the two paths. -/
def Store.sharedName : Store := ofText "d.json" sharedNameText

/-- The corpus of the two paths. -/
def Corpus.sharedName : Corpus := ⟨⟨.working, []⟩, [⟨.working, ["d.json"]⟩]⟩

namespace Store

theorem open?_sharedName :
    Corpus.open? sharedName ⟨.working, []⟩ = .ok Corpus.sharedName :=
  Corpus.open?_of_singleton rfl rfl rfl

theorem writtenDocument_sharedName :
    sharedName.writtenDocument ⟨.working, ["d.json"]⟩
    = .ok (.object [("a___b", .leaf (.integer 1)),
        ("a", .object [("b", .leaf (.integer 2))])]) :=
  writtenDocument_of_text rfl (Json.skipMark_toUTF8 rfl rfl) rfl rfl

theorem passes_sharedName :
    ∀ file ∈ Corpus.sharedName.files, sharedName.Passes file := by
  intro file hfile
  obtain ⟨es, hholds⟩ := exists_holds writtenDocument_sharedName
  rw [List.mem_singleton.mp hfile]
  exact hholds.passes (by decide)

end Store

/-- Two paths with one name do not keep a survey from succeeding. -/
theorem Survey.job_of_shared_name :
    ∃ survey,
      ((job Corpus.sharedName .usual).runOn
        ⟨Store.sharedName, .fresh none, []⟩).1 = .ok survey :=
  (job_ends_with_first_failure _ _ _ ⟨rfl, rfl⟩).1.mpr
    ⟨Store.passes_sharedName, rfl⟩

end LeafSurvey
