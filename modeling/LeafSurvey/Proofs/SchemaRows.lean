import LeafSurvey.Proofs.Totals
import Mathlib.Algebra.BigOperators.Group.List.Basic
import Mathlib.Data.List.Dedup

/-!
# The schema table beside the draft

The schema table and the draft are made apart: the table sorts named groups by
their joined names and looks at their members once more, the draft sorts fields
that are already made. Both sorts start from the paths in the order in which
they were met, so that row and field of one path stand at one place, also among
equal names.

* `sum_length_sharing`: the named groups hold all entries that have a name;
* `shows_ofPath`: the row of a path shows what its field says;
* `schema_agrees_with_draft`: where a survey succeeds the table is shown, and
  row by row it is the draft.
-/

namespace LeafSurvey

/-! ## Entries by path -/

namespace Entries

theorem namedPaths_perm_dedup (es : List Entry) :
    (namedPaths es).Perm
      ((es.map fun e => e.path.normalized).dedup.filter fun path =>
        !path.isEmpty) := by
  refine (List.perm_ext_iff_of_nodup (nodup_namedPaths es)
    ((List.nodup_dedup _).filter _)).mpr ?_
  intro path
  simp [namedPaths, paths]

theorem sum_length_sharing (es : List Entry) :
    ((namedPaths es).map fun path => (sharing path es).length).sum
      = es.countP fun e => !e.path.normalized.isEmpty := by
  -- a path is shared as often as it occurs among the normalized paths
  have hcount : ∀ path, (sharing path es).length
      = @List.count Path instBEqOfDecidableEq path
          (es.map fun e => e.path.normalized) := by
    intro path
    rw [sharing, ← List.countP_eq_length_filter]
    exact (List.countP_map (p := fun p : Path => decide (p = path))
      (l := es)).symm
  simp only [hcount]
  rw [((namedPaths_perm_dedup es).map _).sum_eq,
    List.sum_map_count_dedup_filter_eq_countP, List.countP_map]
  rfl

end Entries

/-! ## Rows -/

/-- What a row of the schema table says. -/
structure SchemaRow where
  field : String
  type : String
  entries : Nat
  isSet : Bool
  isMixed : Bool
deriving Repr

namespace SchemaRow

/-- The cells of a row. -/
def cells (r : SchemaRow) : List String :=
  [r.field, r.type, toString r.entries, if r.isSet then "yes" else "",
    if r.isMixed then "[yellow]yes[/yellow]" else ""]

/-- The headers above the cells. -/
def headers : List String :=
  ["Field", "Type", "Entries", "Set", "Mixed"]

/-- A row and a field definition say the same of a field. -/
structure Shows (r : SchemaRow) (field : Field) : Prop where
  name : r.field = field.name
  type_of_scalar : ∀ t, field.type = .scalar t → r.type = t.name
  type_of_set : ∀ t, field.type = .set t → r.type = "Set<" ++ t.name ++ ">"
  isSet_iff : r.isSet = true ↔ ∃ t, field.type = .set t

/-- The row of a path among entries. -/
def ofPath (delimiter : String) (es : List Entry) (path : Path) :
    SchemaRow where
  field := path.joined delimiter
  type := (Entries.fieldType (Entries.sharing path es)).fullName
  entries := (Entries.sharing path es).length
  isSet := Entries.isPlural (Entries.sharing path es)
  isMixed := Entries.isMixed (Entries.sharing path es)

/-- The rows of the schema table, in its order. -/
def ofEntries (delimiter : String) (es : List Entry) : List SchemaRow :=
  (Entries.sortedPaths delimiter es).map (ofPath delimiter es)

variable (delimiter : String) (es : List Entry)

theorem schemaTableOf_rows_eq :
    (Corpus.schemaTableOf delimiter (Groups.ofEntries es)).rows
      = (ofEntries delimiter es).map cells := by
  rw [Corpus.schemaTableOf_rows, ofEntries, List.map_map]
  rfl

theorem shows_ofPath (naming : Naming) (path : Path)
    (h : naming.delimiter = delimiter) :
    (ofPath delimiter es path).Shows (Field.ofPath naming es path) where
  name := by rw [← h]; rfl
  type_of_scalar t ht := by
    have htype : Entries.fieldType (Entries.sharing path es) = .scalar t := ht
    rw [ofPath, htype, FieldType.fullName]
  type_of_set t ht := by
    have htype : Entries.fieldType (Entries.sharing path es) = .set t := ht
    rw [ofPath, htype, FieldType.fullName]
  isSet_iff := by
    show Entries.isPlural _ = true ↔ ∃ t, Entries.fieldType _ = .set t
    rw [← Entries.isSet_fieldType]
    cases Entries.fieldType (Entries.sharing path es) <;> simp [FieldType.isSet]

theorem ofEntries_perm :
    (ofEntries delimiter es).Perm
      ((Entries.namedPaths es).map (ofPath delimiter es)) :=
  (Entries.sortedPaths_perm delimiter es).map _

theorem countP_isSet_ofEntries : (ofEntries delimiter es).countP (·.isSet)
    = (Entries.namedPaths es).countP fun path =>
        Entries.isPlural (Entries.sharing path es) := by
  rw [(ofEntries_perm delimiter es).countP_eq, List.countP_map]
  rfl

theorem countP_isMixed_ofEntries : (ofEntries delimiter es).countP (·.isMixed)
    = (Entries.namedPaths es).countP fun path =>
        Entries.isMixed (Entries.sharing path es) := by
  rw [(ofEntries_perm delimiter es).countP_eq, List.countP_map]
  rfl

/-- The rows and the entries without a name are together all entries. -/
theorem sum_entries_ofEntries : ((ofEntries delimiter es).map (·.entries)).sum
    + (es.countP fun e => e.path.normalized.isEmpty) = es.length := by
  have hrows : ((ofEntries delimiter es).map (·.entries)).sum
      = es.countP fun e => !e.path.normalized.isEmpty := by
    rw [((ofEntries_perm delimiter es).map _).sum_eq, List.map_map]
    exact Entries.sum_length_sharing es
  have hall :=
    List.length_eq_countP_add_countP
      (fun e : Entry => e.path.normalized.isEmpty) (l := es)
  simp only [Bool.not_eq_true, Bool.decide_eq_false] at hall
  omega

end SchemaRow

/-! ## The table and the draft -/

namespace Survey

/-- A console that lets two notices through shows the table after the notice
that announces it. -/
theorem runOn_showSchema {c : Corpus} {delimiter : Value} {m : Machine}
    {table : Table} (hfirst : m.console.interruptsNext = false)
    (hsecond : m.console.attempted.interruptsNext = false)
    (hlaysOut : m.console.LaysOut (.table table))
    (htable : c.schemaTable delimiter m.store = .ok table) :
    (showSchema c delimiter).runOn m
      = (.ok (), m.withConsole
          ((m.console.attempted.showing
            (.scanning c.files.length)).attempted.showing
            (.table table))) := by
  -- the first notice changes nothing that the table needs
  let announced :=
    m.withConsole (m.console.attempted.showing (.scanning c.files.length))
  have hnext : announced.console.interruptsNext = false := hsecond
  have hlaysOut : announced.console.LaysOut (.table table) := hlaysOut
  have htable : c.schemaTable delimiter announced.store = .ok table := htable
  rw [showSchema, Job.runOn_bind,
    Job.runOn_notify_of_laysOut (m.console.laysOut_of_closed rfl), hfirst]
  show (Job.reading (c.schemaTable delimiter) >>= fun table =>
    Job.notify (.table table)).runOn announced = _
  rw [Job.runOn_bind, Job.runOn_reading, htable]
  show (Job.notify (.table table)).runOn announced = _
  rw [Job.runOn_notify_of_laysOut hlaysOut, hnext]
  rfl

namespace Assembled

variable {c : Corpus} {settings : Settings} {s : Store} {es : List Entry}
  {naming : Naming}
  {survey : Survey}

/-- The fields stand in the order of the names that the delimiter of the
settings gives. -/
theorem fields_eq (h : Assembled c settings s es naming survey)
    (htexts : settings.HasTexts) :
    survey.draft.fields
      = (Entries.sortedPaths settings.delimiter.plain es).map
          (Field.ofPath naming es) := by
  rw [Draft.fields_of?_eq_ok h.draft, Field.ofGroups_ofEntries]
  rcases hpaths : Entries.namedPaths es with _ | ⟨path, _⟩
  · -- nothing is named, and there is nothing to sort
    simp [Entries.sortedPaths, hpaths]
  · have hpath : path ∈ Entries.namedPaths es := hpaths ▸ List.mem_cons_self
    rw [h.delimiter_eq htexts hpath]

/-- Row by row the table shows the fields of the draft. -/
theorem forall₂_shows (h : Assembled c settings s es naming survey)
    (htexts : settings.HasTexts) :
    List.Forall₂ SchemaRow.Shows
      (SchemaRow.ofEntries settings.delimiter.plain es)
      survey.draft.fields := by
  rw [h.fields_eq htexts, SchemaRow.ofEntries, List.forall₂_map_left_iff,
    List.forall₂_map_right_iff, List.forall₂_same]
  intro path hpath
  have hnamed := (Entries.sortedPaths_perm _ es).mem_iff.mp hpath
  exact SchemaRow.shows_ofPath _ es naming path (h.delimiter_eq htexts hnamed)

end Assembled

/-- Where a survey succeeds, the schema table with the delimiter of the settings
is shown as well, on a console that lays it out, and the files stay as they are.
Its rows are the fields of the draft one by one, in the order of the draft: they
show name and type, and mark the sets. As many rows as the report counts are
marked as sets, and as mixed; the entries of the rows are those of the report
without the ones whose normalized path is empty. -/
theorem schema_agrees_with_draft {c : Corpus} {settings : Settings}
    {m shown : Machine} {survey : Survey} (htexts : settings.HasTexts)
    (h : ((job c settings).runOn m).1 = .ok survey)
    (hstore : shown.store = m.store)
    (hfirst : shown.console.interruptsNext = false)
    (hsecond : shown.console.attempted.interruptsNext = false)
    (hlaysOut : ∀ table,
      c.schemaTable settings.delimiter m.store = .ok table →
      shown.console.LaysOut (.table table)) :
    ∃ (es : List Entry) (table : Table) (rows : List SchemaRow)
        (left : Machine),
      c.entries m.store = .ok es
      ∧ (showSchema c settings.delimiter).runOn shown = (.ok (), left)
      ∧ left.store = m.store
      ∧ left.console.shown
          = shown.console.shown ++ [.scanning c.files.length, .table table]
      ∧ table.columns.map (·.header) = SchemaRow.headers
      ∧ table.rows = rows.map SchemaRow.cells
      ∧ List.Forall₂ SchemaRow.Shows rows survey.draft.fields
      ∧ rows.countP (·.isSet) = survey.report.sets
      ∧ rows.countP (·.isMixed) = survey.report.mixed
      ∧ (rows.map (·.entries)).sum
          + (es.countP fun e => e.path.normalized.isEmpty)
          = survey.report.entries := by
  obtain ⟨es, naming, hassembled⟩ := assembled_of_job h
  have htable :=
    Corpus.schemaTable_of_entries htexts.delimiter hassembled.entries
  have hlaysOut := hlaysOut _ htable
  rw [← hstore] at htable
  have hreport := hassembled.report
  rw [Report.ofGroups_ofEntries] at hreport
  refine ⟨es, _, SchemaRow.ofEntries settings.delimiter.plain es, _,
    hassembled.entries, runOn_showSchema hfirst hsecond hlaysOut htable, hstore,
    ?_, rfl, SchemaRow.schemaTableOf_rows_eq _ es,
    hassembled.forall₂_shows htexts, ?_, ?_, ?_⟩
  · simp [Machine.withConsole, Console.showing, Console.attempted]
  · rw [SchemaRow.countP_isSet_ofEntries, hreport]
  · rw [SchemaRow.countP_isMixed_ofEntries, hreport]
  · rw [SchemaRow.sum_entries_ofEntries, hreport]

/-- Of five entries two have no name. The other three fill two rows, both of
sets and one of two kinds. -/
theorem schema_of_assorted :
    ∃ (table : Table) (rows : List SchemaRow) (left : Machine),
      (showSchema (.ofNames ["d.json"]) (.text "___")).runOn
          ⟨.ofText "d.json" Store.assortedText, .fresh none, []⟩
            = (.ok (), left)
      ∧ left.console.shown = [.scanning 1, .table table]
      ∧ table.rows = rows.map SchemaRow.cells
      ∧ rows.length = 2 ∧ rows.countP (·.isSet) = 2
      ∧ rows.countP (·.isMixed) = 1
      ∧ (rows.map (·.entries)).sum = 3 := by
  obtain ⟨survey, hsurvey⟩ := exists_survey_assorted
  obtain ⟨es, naming, hassembled⟩ := assembled_of_job hsurvey
  obtain ⟨es', table, rows, left, hes', hrun, _, hshown, _, hrows, hshows,
      hsets, hmixed, hsum⟩ :=
      @schema_agrees_with_draft _ .usual _ ⟨.ofText "d.json" Store.assortedText,
        .fresh none, []⟩ _ ⟨rfl, rfl⟩ hsurvey rfl rfl rfl fun _ _ _ _ => rfl
  cases hassembled.entries.symm.trans Corpus.entries_assorted
  cases hes'.symm.trans Corpus.entries_assorted
  rw [hassembled.report] at hsets hmixed hsum
  refine ⟨table, rows, left, hrun, hshown, hrows, ?_, hsets, hmixed, ?_⟩
  · rw [hshows.length_eq, hassembled.fields_perm.length_eq]
    rfl
  · have hnameless :
        (Entries.assorted.countP fun e => e.path.normalized.isEmpty) = 2 :=
      rfl
    have htotal :
        (Report.ofGroups 1 5 5 (Groups.ofEntries Entries.assorted)).entries
        = 5 :=
      rfl
    rw [hnameless] at hsum
    have hfive := hsum.trans htotal
    omega

end Survey

end LeafSurvey
