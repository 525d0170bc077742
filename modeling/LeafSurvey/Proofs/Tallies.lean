import LeafSurvey.Proofs.Discovery
import LeafSurvey.Proofs.Usability

/-!
# Counting and verifying

A corpus can be counted, which gives one row for each file whatever the counts
are, and it can be surveyed, which stops at the first file whose counts differ
and afterwards counts all scalar tokens once more. The three passes are written
apart from each other; here they are shown to see the same numbers.

* `checkFile_of_tally`: the check of a file answers as the two counts of its row
  compare;
* `tally_eq_error`: a file has no row exactly if it does not parse;
* `tallies_eq_error`, `exists_first_failure`: the first file that does not parse
  ends the one pass, the first that does not parse or whose counts differ ends
  the other;
* `countAll_of_tallies`: the tokens of the rows add up to the tokens of all
  files;
* `counting_agrees_with_verifying`: the three passes over a corpus side by side.
-/

namespace LeafSurvey

/-! ## One file -/

namespace Store

variable {s : Store} {file : FilePath}

/-- A file parses: reading it answers with a document. -/
def Parses (s : Store) (file : FilePath) : Prop :=
  ∃ d, s.document file = .ok d

theorem Parses.exists_holds (h : s.Parses file) :
    ∃ written es, s.Holds file written es := by
  obtain ⟨d, hd⟩ := h
  rcases s.holds_or_fails file with hholds | ⟨failure, hfails⟩
  · exact hholds
  · cases hd.symm.trans hfails.document

/-- A file that does not parse fails every pass in the same way. -/
theorem fails_of_document {failure : Failure}
    (h : s.document file = .error failure) : s.Fails file failure := by
  rcases s.holds_or_fails file with ⟨written, es, hholds⟩ | ⟨failure', hfails⟩
  · cases hholds.document.symm.trans h
  · cases hfails.document.symm.trans h
    exact hfails

/-- A file does not parse because it cannot be read, or because a number of it
is not taken in, or because its bytes are no document. -/
theorem document_eq_error {failure : Failure}
    (h : s.document file = .error failure) :
    (∃ fault, s.read file = .error fault ∧ failure = .file fault)
      ∨ ∃ bytes, s.read file = .ok bytes
        ∧ ((∃ fault, Json.refusedNumber? bytes = some fault
            ∧ failure = .number fault)
          ∨ ∃ fault, Json.refusedNumber? bytes = none
              ∧ Json.ofBytes? bytes = .error fault
            ∧ failure = .document file fault) := by
  rcases Outcome.bind_eq_error.mp h with hwritten | ⟨written, _, h⟩
  · exact fault_of_written_error hwritten
  · cases h

/-- A file has no row exactly if it does not parse. -/
theorem tally_eq_error {failure : Failure} :
    Corpus.tally s file = .error failure
      ↔ s.document file = .error failure := by
  constructor
  · intro h
    rcases s.holds_or_fails file with ⟨written, es, hholds⟩ | ⟨failure', hfails⟩
    · cases hholds.tally.symm.trans h
    · cases hfails.tally.symm.trans h
      exact hfails.document
  · intro h
    exact (fails_of_document h).tally

theorem parses_iff_tally :
    s.Parses file ↔ ∃ row, Corpus.tally s file = .ok row := by
  constructor
  · intro h
    obtain ⟨written, es, hholds⟩ := h.exists_holds
    exact ⟨_, hholds.tally⟩
  · rintro ⟨row, hrow⟩
    rcases s.holds_or_fails file with ⟨written, es, hholds⟩ | ⟨failure, hfails⟩
    · exact ⟨_, hholds.document⟩
    · cases hfails.tally.symm.trans hrow

/-- The check of a file answers as the counts of its row compare. -/
theorem checkFile_of_tally {row : Corpus.Tally}
    (h : Corpus.tally s file = .ok row) :
    row.file = file
      ∧ s.countTokens file = .ok row.tokens
      ∧ s.checkFile file = if row.entries = row.tokens then .ok row.tokens
        else .error (.leafMismatch file.name row.entries row.tokens) := by
  obtain ⟨written, es, hholds⟩ := (parses_iff_tally.mpr ⟨row, h⟩).exists_holds
  cases hholds.tally.symm.trans h
  exact ⟨rfl, hholds.tokens, hholds.checkFile⟩

/-- A file passes exactly if it parses into a row of equal counts. -/
theorem passes_of_tally {row : Corpus.Tally}
    (h : Corpus.tally s file = .ok row) :
    s.Passes file ↔ row.entries = row.tokens := by
  rw [Passes, (checkFile_of_tally h).2.2]
  split
  · rename_i heq
    simp [heq]
  · rename_i hne
    simp [hne]

end Store

/-! ## All files -/

namespace Corpus

variable {c : Corpus} {s : Store} {rows : List Tally}

theorem files_of_tallies (h : c.tallies s = .ok rows) :
    rows.map (·.file) = c.files := by
  rw [Outcome.map_of_mapM h fun file row hrow =>
    (Store.checkFile_of_tally hrow).1, List.map_id']

theorem tally_of_mem {row : Tally} (h : c.tallies s = .ok rows)
    (hrow : row ∈ rows) :
    tally s row.file = .ok row := by
  have hmem : Except.ok row ∈ c.files.map (tally s) := by
    rw [Outcome.mapM_eq_ok.mp h]
    exact List.mem_map_of_mem hrow
  obtain ⟨file, _, hfile⟩ := List.mem_map.mp hmem
  rw [(Store.checkFile_of_tally hfile).1, hfile]

/-- The files are counted up to the first that does not parse. -/
theorem tallies_eq_error {failure : Failure} :
    c.tallies s = .error failure
      ↔ ∃ front file rest, c.files = front ++ file :: rest
          ∧ (∀ f ∈ front, s.Parses f)
        ∧ s.document file = .error failure := by
  rw [tallies, Outcome.mapM_eq_error]
  simp only [Store.parses_iff_tally, Store.tally_eq_error]

/-- All files pass exactly if every row has equal counts. -/
theorem passes_iff_of_tallies (h : c.tallies s = .ok rows) :
    (∀ file ∈ c.files, s.Passes file)
      ↔ ∀ row ∈ rows, row.entries = row.tokens := by
  rw [← files_of_tallies h, List.forall_mem_map]
  constructor
  · intro hpass row hrow
    exact (Store.passes_of_tally (tally_of_mem h hrow)).mp (hpass row hrow)
  · intro heq row hrow
    exact (Store.passes_of_tally (tally_of_mem h hrow)).mpr (heq row hrow)

/-- The tokens of the rows are together the tokens of all files. -/
theorem countAll_of_tallies {files : List FilePath}
    (h : files.mapM (tally s) = .ok rows) :
    s.countAll files = .ok (rows.map (·.tokens)).sum := by
  induction files generalizing rows with
  | nil =>
    cases h
    rfl
  | cons file rest ih =>
    rw [List.mapM_cons] at h
    obtain ⟨row, hrow, h⟩ := Outcome.bind_eq_ok.mp h
    obtain ⟨rows', hrows', h⟩ := Outcome.bind_eq_ok.mp h
    cases h
    rw [Store.countAll, (Store.checkFile_of_tally hrow).2.1, ih hrows',
      List.map_cons, List.sum_cons]
    rfl

/-- The last cell of a row reads ok exactly if its counts are equal. -/
theorem getLast?_countRow (root : FilePath) (row : Tally) :
    (countRow root row).getLast? = some "[green]ok[/green]"
      ↔ row.entries = row.tokens := by
  show some (countStatus row.entries row.tokens) = _ ↔ _
  unfold countStatus
  split
  · rename_i heq
    simp [heq]
  · rename_i hne
    simp [hne]

theorem countTable_of_tallies (h : c.tallies s = .ok rows) :
    ∃ table, c.countTable s = .ok table
      ∧ table.rows = rows.map (countRow c.root) := by
  refine ⟨_, Outcome.bind_eq_ok.mpr ⟨rows, h, rfl⟩, rfl⟩

end Corpus

/-! ## The survey -/

namespace Survey

variable {c : Corpus} {settings : Settings} {m : Machine}
  {rows : List Corpus.Tally}

theorem runOn_showCounts {table : Table}
    (hquiet : m.console.interruptsNext = false)
    (hlaysOut : m.console.LaysOut (.table table))
    (h : c.countTable m.store = .ok table) :
    (showCounts c).runOn m = (.ok (),
      m.withConsole (m.console.attempted.showing (.table table))) := by
  rw [showCounts, Job.runOn_bind, Job.runOn_reading, h]
  show (Job.notify (.table table)).runOn m = _
  rw [Job.runOn_notify_of_laysOut hlaysOut, hquiet]
  rfl

/-- Without an interrupt a survey answers as `run?` does. -/
theorem answer_runOn_job_of_quiet (hquiet : m.console.interruptsNext = false) :
    ((job c settings).runOn m).1 = run? c settings m.store := by
  rw [answer_runOn_job, hquiet]
  rfl

/-- Once all files have passed, a survey succeeds or a configured value is
misused, and not otherwise. -/
theorem passes_iff_answer (hquiet : m.console.interruptsNext = false) :
    (∀ file ∈ c.files, m.store.Passes file)
      ↔ (∃ survey, ((job c settings).runOn m).1 = .ok survey)
        ∨ ∃ cause, ((job c settings).runOn m).1 = .error (.misuse cause) := by
  constructor
  · intro hpass
    rw [answer_runOn_job_of_quiet hquiet]
    exact run?_of_passes settings hpass
  · intro hanswer
    cases hfiles : checkFiles c m.store with
    | ok _ => exact checkFiles_eq_ok.mp hfiles
    | error failure =>
      -- the checks of files know no misused value
      obtain ⟨_, file, _, _, _, hfile⟩ := checkFiles_eq_error.mp hfiles
      rw [answer_of_checkFiles_error hfiles] at hanswer
      rcases hanswer with ⟨survey, h⟩ | ⟨cause, h⟩
      · cases h
      · cases h
        rcases Store.checkFile_eq_error hfile with
          ⟨_, _, h⟩ | ⟨_, _, _, _, h⟩ | ⟨_, h⟩ | ⟨_, _, _, h⟩ <;> cases h

/-- The first file that does not parse, or whose counts differ, ends a
survey. -/
theorem exists_first_failure (settings : Settings)
    (h : ¬∀ file ∈ c.files, m.store.Passes file) :
    ∃ front file rest, c.files = front ++ file :: rest
      ∧ (∀ f ∈ front, ∃ n, Corpus.tally m.store f = .ok ⟨f, n, n⟩)
      ∧ ((∃ failure, m.store.document file = .error failure
            ∧ ((job c settings).runOn m).1 = .error failure)
          ∨ ∃ entries tokens, Corpus.tally m.store file = .ok
              ⟨file, entries, tokens⟩ ∧ entries ≠ tokens
            ∧ ((job c settings).runOn m).1
                = .error (.leafMismatch file.name entries tokens)) := by
  cases hfiles : checkFiles c m.store with
  | ok _ => exact absurd (checkFiles_eq_ok.mp hfiles) h
  | error failure =>
    have hanswer : ((job c settings).runOn m).1 = .error failure :=
      answer_of_checkFiles_error hfiles
    obtain ⟨front, file, rest, heq, hfront, hfile⟩ :=
      checkFiles_eq_error.mp hfiles
    refine ⟨front, file, rest, heq, fun f hf => ?_, ?_⟩
    · obtain ⟨n, hn⟩ := hfront f hf
      obtain ⟨written, es, hholds, hes, hcount⟩ := Store.checkFile_eq_ok.mp hn
      refine ⟨n, ?_⟩
      rw [hholds.tally, hes, hcount]
    · rcases m.store.holds_or_fails file with
        ⟨written, es, hholds⟩ | ⟨failure', hfails⟩
      · rw [hholds.checkFile] at hfile
        split at hfile
        · cases hfile
        · rename_i hne
          cases hfile
          exact .inr ⟨es.length, written.leafCount, hholds.tally, hne, hanswer⟩
      · cases hfails.check.symm.trans hfile
        exact .inl ⟨failure, hfails.document, hanswer⟩

/-- The rows of a corpus, the table that shows them, and what the survey makes
of the same files. -/
structure CountedAlike (c : Corpus) (settings : Settings) (m : Machine)
    (rows : List Corpus.Tally) (table : Table) : Prop where
  /-- Counting answers with one row for each file, in the order of the
  corpus. -/
  tallies : c.tallies m.store = .ok rows
  files : rows.map (·.file) = c.files
  /-- The check of a file goes by the numbers of its row. -/
  checks : ∀ row ∈ rows, m.store.checkFile row.file
    = if row.entries = row.tokens then .ok row.tokens
      else .error (.leafMismatch row.file.name row.entries row.tokens)
  /-- The table is shown, and nothing fails. -/
  shown : (showCounts c).runOn m
    = (.ok (), m.withConsole (m.console.attempted.showing (.table table)))
  rows_eq : table.rows = rows.map (Corpus.countRow c.root)
  /-- Every row reads ok exactly if the survey gets past its checks: only a
  configured value can fail it then. -/
  passes : (∀ cells ∈ table.rows, cells.getLast? = some "[green]ok[/green]")
    ↔ (∃ survey, ((job c settings).runOn m).1 = .ok survey)
      ∨ ∃ cause, ((job c settings).runOn m).1 = .error (.misuse cause)
  /-- With texts for a delimiter and a locale the survey succeeds. -/
  succeeds : settings.HasTexts →
    ((∀ cells ∈ table.rows, cells.getLast? = some "[green]ok[/green]")
    ↔ ∃ survey, ((job c settings).runOn m).1 = .ok survey)
  /-- The tokens of the rows then add up to the verified total, which is the
  total reported. -/
  total : (∀ cells ∈ table.rows, cells.getLast? = some "[green]ok[/green]") →
    m.store.checkTotal c.files (c.entries m.store)
      = .ok (rows.map (·.tokens)).sum
  reported : ∀ survey, ((job c settings).runOn m).1 = .ok survey →
    survey.report.tokens = (rows.map (·.tokens)).sum

/-- The cells of the table, by the paths of the files from the root. -/
theorem CountedAlike.cells_eq {table : Table} {names : List (List String)}
    (h : CountedAlike c settings m rows table)
    (hnames : c.files = names.map c.root.below) :
    table.rows = List.zipWith (fun parts (row : Corpus.Tally) =>
      [FilePath.text ⟨.working, parts⟩, toString row.entries,
        toString row.tokens,
        if row.entries = row.tokens then "[green]ok[/green]"
        else "[bold red]mismatch[/bold red]"])
      names rows := by
  have hcells : rows.map (Corpus.countRow c.root)
      = List.zipWith (fun file (row : Corpus.Tally) =>
          [c.root.relativeText file, toString row.entries, toString row.tokens,
            Corpus.countStatus row.entries row.tokens])
        (rows.map (·.file)) rows := by
    rw [List.zipWith_map_left, List.zipWith_self]
    rfl
  rw [h.rows_eq, hcells, h.files, hnames, List.zipWith_map_left]
  simp only [FilePath.relativeText_below]
  rfl

theorem exists_countedAlike (settings : Settings)
    (hquiet : m.console.interruptsNext = false)
    (hlaysOut : ∀ table,
      c.countTable m.store = .ok table → m.console.LaysOut (.table table))
    (hparse : ∀ file ∈ c.files, m.store.Parses file) :
    ∃ rows table, CountedAlike c settings m rows table := by
  have htally : ∀ file ∈ c.files, ∃ row,
      Corpus.tally m.store file = .ok row := fun file hfile =>
    Store.parses_iff_tally.mp (hparse file hfile)
  obtain ⟨rows, hrows⟩ := Outcome.exists_mapM_eq_ok htally
  obtain ⟨table, htable, hcells⟩ := Corpus.countTable_of_tallies hrows
  have hok : (∀ cells ∈ table.rows, cells.getLast? = some "[green]ok[/green]")
      ↔ ∀ file ∈ c.files, m.store.Passes file := by
    rw [hcells, List.forall_mem_map, Corpus.passes_iff_of_tallies hrows]
    simp only [Corpus.getLast?_countRow]
  have htokens := Corpus.countAll_of_tallies hrows
  refine ⟨rows, table, hrows, Corpus.files_of_tallies hrows, fun row hrow => ?_,
    runOn_showCounts hquiet (hlaysOut table htable) htable, hcells, ?_,
    fun htexts => ?_, fun hall => ?_, fun survey hsurvey => ?_⟩
  · exact (Store.checkFile_of_tally (Corpus.tally_of_mem hrows hrow)).2.2
  · rw [hok]
    exact passes_iff_answer hquiet
  · rw [hok, (job_ends_with_first_failure c settings m htexts).1]
    simp [hquiet]
  · obtain ⟨es, hes, hcount⟩ := exists_entries_of_passes (hok.mp hall)
    have hsum := Except.ok.inj (htokens.symm.trans hcount)
    rw [hes, hsum]
    exact Store.checkTotal_eq_ok.mpr ⟨hcount, rfl⟩
  · obtain ⟨es, naming, hassembled⟩ := assembled_of_job hsurvey
    have hcount := hassembled.tokens
    rw [htokens] at hcount
    rw [hassembled.report, Except.ok.inj hcount]
    rfl

/-- A corpus whose files all parse, as they are when it is counted, is counted
file by file on a console that lays out the table, and the check of each file,
the verdict of the survey and its total are what the rows say. Otherwise
counting fails as the first file that does not parse: for a number that is not
taken in, or else as no document. The survey fails as the first file that does
not parse or whose counts differ. -/
theorem counting_agrees_with_verifying {s₀ : Store} {root : FilePath}
    (settings : Settings) (hopen : Corpus.open? s₀ root = .ok c)
    (hquiet : m.console.interruptsNext = false)
    (hlaysOut : ∀ table,
      c.countTable m.store = .ok table → m.console.LaysOut (.table table)) :
    ((∀ file ∈ c.files, m.store.Parses file) →
        ∃ rows table names, CountedAlike c settings m rows table
          ∧ c.files = names.map root.below
          ∧ table.rows = List.zipWith (fun parts (row : Corpus.Tally) =>
              [FilePath.text ⟨.working, parts⟩, toString row.entries,
                toString row.tokens,
                if row.entries = row.tokens then "[green]ok[/green]"
                else "[bold red]mismatch[/bold red]"])
              names rows)
      ∧ ((∃ file ∈ c.files, ¬m.store.Parses file) →
        ∃ front file rest failure, c.files = front ++ file :: rest
          ∧ (∀ f ∈ front, m.store.Parses f)
          ∧ c.tallies m.store = .error failure
          ∧ ((∃ fault, m.store.read file = .error fault ∧ failure = .file fault)
            ∨ ∃ bytes, m.store.read file = .ok bytes
              ∧ ((∃ fault, Json.refusedNumber? bytes = some fault
                  ∧ failure = .number fault)
                ∨ ∃ fault, Json.refusedNumber? bytes = none
                  ∧ Json.ofBytes? bytes = .error fault
                  ∧ failure = .document file fault)))
      ∧ ((∃ file ∈ c.files, ¬m.store.Passes file) →
        ∃ front file rest, c.files = front ++ file :: rest
          ∧ (∀ f ∈ front, ∃ n, Corpus.tally m.store f = .ok ⟨f, n, n⟩)
          ∧ ((∃ failure, m.store.document file = .error failure
                ∧ ((job c settings).runOn m).1 = .error failure)
              ∨ ∃ entries tokens,
                Corpus.tally m.store file = .ok ⟨file, entries, tokens⟩
                ∧ entries ≠ tokens
                ∧ ((job c settings).runOn m).1
                    = .error (.leafMismatch file.name entries tokens))) := by
  refine ⟨fun hparse => ?_, fun hbad => ?_, fun hbad => ?_⟩
  · obtain ⟨rows, table, h⟩ :=
      exists_countedAlike settings hquiet hlaysOut hparse
    obtain ⟨base, _, _, rfl⟩ := Corpus.open?_eq_ok.mp hopen
    obtain ⟨names, hnames, _⟩ := Corpus.files_of_open? hopen
    exact ⟨rows, table, names, h, hnames, h.cells_eq hnames⟩
  · cases htallies : c.tallies m.store with
    | ok rows =>
      obtain ⟨file, hfile, hnot⟩ := hbad
      rw [← Corpus.files_of_tallies htallies] at hfile
      obtain ⟨row, hrow, rfl⟩ := List.mem_map.mp hfile
      exact absurd (Store.parses_iff_tally.mpr
        ⟨row, Corpus.tally_of_mem htallies hrow⟩) hnot
    | error failure =>
      obtain ⟨front, file, rest, heq, hfront, hfile⟩ :=
        Corpus.tallies_eq_error.mp htallies
      exact ⟨front, file, rest, failure, heq, hfront, rfl,
        Store.document_eq_error hfile⟩
  · obtain ⟨file, hfile, hnot⟩ := hbad
    exact exists_first_failure settings fun hall => hnot (hall file hfile)

end Survey

/-! ## A corpus with a repeated key -/

/-- Two documents, the first of which repeats a key and loses a value by
that. -/
def Store.repeating : Store :=
  ofTexts [("a.json", "\x7b\"k\": 1, \"k\": [2, 3]\x7d"), ("b.json", "[null]")]

namespace Corpus

theorem open?_repeating :
    open? .repeating (.ofString ".") = .ok (.ofNames ["a.json", "b.json"]) :=
  @open?_of_sorted _ _ [] [["a.json"],
    ["b.json"]] rfl rfl (by decide +kernel) (by decide)

theorem writtenDocument_repeating :
    Store.repeating.writtenDocument ⟨.working, ["a.json"]⟩
        = .ok (.object [("k", .leaf (.integer 1)),
            ("k", .array [.leaf (.integer 2), .leaf (.integer 3)])])
      ∧ Store.repeating.writtenDocument ⟨.working, ["b.json"]⟩
          = .ok (.array [.leaf .null]) :=
  ⟨Store.writtenDocument_of_text rfl (Json.skipMark_toUTF8 rfl rfl) rfl rfl,
    Store.writtenDocument_of_text rfl (Json.skipMark_toUTF8 rfl rfl) rfl rfl⟩

/-- Both documents parse, into two entries of three tokens and into one of
one. -/
theorem tally_repeating :
    tally .repeating ⟨.working, ["a.json"]⟩ = .ok ⟨⟨.working, ["a.json"]⟩, 2, 3⟩
      ∧ tally .repeating ⟨.working, ["b.json"]⟩
          = .ok ⟨⟨.working, ["b.json"]⟩, 1, 1⟩ := by
  obtain ⟨es, hholds⟩ := Store.exists_holds writtenDocument_repeating.1
  obtain ⟨es', hholds'⟩ := Store.exists_holds writtenDocument_repeating.2
  rw [hholds.tally, hholds'.tally, hholds.length_entries,
    hholds'.length_entries]
  exact ⟨rfl, rfl⟩

end Corpus

/-- Counting goes on after the repeated key and shows both rows; the survey ends
there, with the two numbers of the first row. -/
theorem Survey.counts_of_repeating :
    ∃ table, (showCounts (.ofNames ["a.json", "b.json"])).runOn
      ⟨.repeating, .fresh none, []⟩
        = (.ok (), ⟨.repeating, ⟨[.table table], 1, none, fun _ => false⟩, []⟩)
      ∧ table.rows = [["a.json", "2", "3", "[bold red]mismatch[/bold red]"],
          ["b.json", "1", "1", "[green]ok[/green]"]]
      ∧ ((job (.ofNames ["a.json", "b.json"]) .usual).runOn
          ⟨.repeating, .fresh none, []⟩).1
        = .error (.leafMismatch "a.json" 2 3) := by
  obtain ⟨hall, _, hfirst⟩ :=
    counting_agrees_with_verifying (m := ⟨.repeating, .fresh none, []⟩) .usual
      Corpus.open?_repeating rfl fun _ _ _ _ => rfl
  obtain ⟨hrow, hrow'⟩ := Corpus.tally_repeating
  have hparse : ∀ file ∈ (Corpus.ofNames ["a.json", "b.json"]).files,
      Store.repeating.Parses file := by
    simp only [Corpus.ofNames, List.map_cons, List.map_nil,
      List.forall_mem_cons]
    exact ⟨Store.parses_iff_tally.mpr ⟨_, hrow⟩,
      Store.parses_iff_tally.mpr ⟨_, hrow'⟩, by simp⟩
  obtain ⟨rows, table, names, h, _, _⟩ := hall hparse
  have hrows : rows = [_, _] := Except.ok.inj (h.tallies.symm.trans
    (Outcome.mapM_eq_ok.mpr (congrArg₂ (fun x y => [x, y]) hrow hrow')))
  refine ⟨table, h.shown, ?_, ?_⟩
  · rw [h.rows_eq, hrows]
    rfl
  · have hnot : ¬Store.repeating.Passes ⟨.working, ["a.json"]⟩ := by
      rw [Store.passes_of_tally hrow]
      decide
    obtain ⟨front, file, rest, heq, hfront, hfile⟩ :=
      hfirst ⟨_, List.mem_cons_self, hnot⟩
    -- no file stands before the first one
    have hnil : front = [] := by
      cases front with
      | nil => rfl
      | cons f front =>
        obtain rfl : f = ⟨.working, ["a.json"]⟩ := (List.cons.inj heq).1.symm
        obtain ⟨n, hn⟩ := hfront _ List.mem_cons_self
        cases hrow.symm.trans hn
    subst hnil
    obtain rfl : file = ⟨.working, ["a.json"]⟩ := (List.cons.inj heq).1.symm
    rcases hfile with ⟨failure, hdocument, _⟩
      | ⟨entries, tokens, htally, _, hanswer⟩
    · cases hrow.symm.trans (Store.tally_eq_error.mpr hdocument)
    · cases hrow.symm.trans htally
      exact hanswer

/-- A file may parse in no way and yet be the text of a document: its number
ends the counting, and not as a document that cannot be read. -/
theorem Survey.great_number_ends_counting :
    let s := Store.ofText "d.json" Store.greatText
    let c := Corpus.ofNames ["d.json"]
    Corpus.open? s (.ofString ".") = .ok c
      ∧ (∃ d, Json.ofBytes? Store.greatText.toUTF8 = .ok d)
      ∧ (∃ file ∈ c.files, ¬s.Parses file)
      ∧ ∀ file fault, c.tallies s ≠ .error (.document file fault) := by
  intro s c
  have hopen : Corpus.open? s (.ofString ".") = .ok c :=
    @Corpus.open?_of_sorted _ _ [] [["d.json"]] rfl rfl
      (by decide +kernel) (by decide)
  have hfails : s.Fails ⟨.working, ["d.json"]⟩ (.number .outOfRange) :=
    Store.fails_of_greatText rfl
  have hnot : ¬s.Parses ⟨.working, ["d.json"]⟩ := fun ⟨d, hd⟩ =>
    nomatch hfails.document.symm.trans hd
  have hcount : c.tallies s = .error (.number .outOfRange) :=
    Corpus.tallies_eq_error.mpr ⟨[], _, [], rfl, by simp, hfails.document⟩
  refine ⟨hopen, Store.ofBytes?_greatText,
    ⟨_, List.mem_singleton_self _, hnot⟩, ?_⟩
  intro file fault h
  cases hcount.symm.trans h

end LeafSurvey
