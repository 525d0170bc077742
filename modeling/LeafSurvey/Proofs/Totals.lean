import LeafSurvey.Proofs.FieldNames
import LeafSurvey.Proofs.FieldTypes
import Mathlib.Algebra.BigOperators.Group.List.Basic
import Mathlib.Data.Set.Card

/-!
# Report and draft

The numbers of a report come from several passes: over the texts, over the
groups, over the members of each group. The draft is built by another. Here they
are shown to speak of the same corpus.

* `counts_sum`: the counts that the checks of files answer add up to the number
  of entries;
* `mixed_eq_ncard`: the report counts the paths that have values of two kinds;
* `report_agrees_with_draft`: what a survey that succeeds reports about leaves,
  fields, sets and mixed paths.
-/

namespace LeafSurvey

/-! ## Leaves -/

/-- The answers of the checks add up to the entries of all files. -/
theorem Store.counts_sum {s : Store} {files : List FilePath} {counts : List Nat}
    {parts : List (List Entry)} (hcounts : files.mapM s.checkFile = .ok counts)
    (hparts : files.mapM s.entriesOfFile = .ok parts) :
    counts.sum = parts.flatten.length := by
  rw [Outcome.mapM_eq_ok] at hcounts hparts
  induction files generalizing counts parts with
  | nil =>
    rw [List.map_eq_nil_iff.mp hcounts.symm, List.map_eq_nil_iff.mp hparts.symm]
    rfl
  | cons file rest ih =>
    obtain ⟨n, counts, rfl, hn, hcounts⟩ := List.map_eq_cons_iff.mp hcounts.symm
    obtain ⟨es, parts, rfl, hes, hparts⟩ := List.map_eq_cons_iff.mp hparts.symm
    obtain ⟨_, es', hholds, hlength, _⟩ := checkFile_eq_ok.mp hn.symm
    cases hholds.entries.symm.trans hes.symm
    rw [List.sum_cons, List.flatten_cons, List.length_append, hlength,
      ih hcounts.symm hparts.symm]

/-! ## Paths -/

namespace Entries

theorem mem_namedPaths_of_hasTwoKinds {es : List Entry} {path : Path}
    (hpath : path ≠ []) (h : HasTwoKinds (sharing path es)) :
    path ∈ namedPaths es := by
  obtain ⟨e, he, _⟩ := h
  obtain ⟨hes, hshares⟩ := List.mem_filter.mp he
  exact mem_namedPaths.mpr ⟨hpath, e, hes, of_decide_eq_true hshares⟩

theorem mixed_eq_ncard (es : List Entry) :
    ((namedPaths es).countP fun path => isMixed (sharing path es))
      = {path : Path | path ≠ [] ∧ HasTwoKinds (sharing path es)}.ncard := by
  have hset : {path : Path | path ≠ [] ∧ HasTwoKinds (sharing path es)}
      = ((namedPaths es).filter fun path =>
          isMixed (sharing path es)).toFinset := by
    ext path
    rw [Set.mem_ofPred_eq, List.coe_toFinset, Set.mem_ofPred_eq,
      List.mem_filter, isMixed_iff]
    constructor
    · rintro ⟨hpath, htwo⟩
      exact ⟨mem_namedPaths_of_hasTwoKinds hpath htwo, htwo⟩
    · rintro ⟨hnamed, htwo⟩
      exact ⟨(mem_namedPaths.mp hnamed).1, htwo⟩
  rw [hset, Set.ncard_coe_finset,
    List.toFinset_card_of_nodup ((nodup_namedPaths es).filter _),
    List.countP_eq_length_filter]

end Entries

/-! ## The whole survey -/

namespace Survey

/-- The fields of a survey, one for each named path of its entries. -/
theorem Assembled.fields_perm {c : Corpus} {settings : Settings} {s : Store}
    {es : List Entry} {naming : Naming} {survey : Survey}
    (h : Assembled c settings s es naming survey) :
    survey.draft.fields.Perm
      ((Entries.namedPaths es).map (Field.ofPath naming es)) := by
  rw [Draft.fields_of?_eq_ok h.draft]
  exact Field.ofGroups_perm naming es

/-- A report counts as many set paths as the draft has set fields. -/
theorem Assembled.sets_eq {c : Corpus} {settings : Settings} {s : Store}
    {es : List Entry} {naming : Naming} {survey : Survey}
    (h : Assembled c settings s es naming survey) :
    survey.report.sets = survey.draft.fields.countP (·.type.isSet) := by
  rw [h.fields_perm.countP_eq, List.countP_map, h.report,
    Report.ofGroups_ofEntries]
  refine List.countP_congr fun path _ => ?_
  show _ ↔ (Entries.fieldType (Entries.sharing path es)).isSet = true
  rw [Entries.isSet_fieldType]

/-- What a survey that succeeds reports. The leaf totals are both the number of
entries of the corpus, the nameless ones included, and the sum of what the
checks of the files answer. The draft has the reported number of fields, one for
each named path, and the reported number of them are sets. The mixed paths
reported are those with values of two kinds, and each of them has a field of
texts. -/
theorem report_agrees_with_draft {c : Corpus} {settings : Settings}
    {m : Machine} {survey : Survey}
    (h : ((job c settings).runOn m).1 = .ok survey) :
    ∃ es counts naming, c.entries m.store = .ok es
      ∧ c.files.mapM m.store.checkFile = .ok counts
      ∧ settings.naming? (Groups.ofEntries es) = .ok naming
      ∧ survey.report.tokens = es.length
      ∧ survey.report.entries = es.length
      ∧ counts.sum = es.length
      ∧ survey.report.fields = survey.draft.fields.length
      ∧ survey.draft.fields.Perm
          ((Entries.namedPaths es).map (Field.ofPath naming es))
      ∧ survey.report.sets = survey.draft.fields.countP (·.type.isSet)
      ∧ survey.report.mixed
          = {path : Path | path ≠ []
              ∧ Entries.HasTwoKinds (Entries.sharing path es)}.ncard
      ∧ ∀ path : Path, path ≠ [] →
          Entries.HasTwoKinds (Entries.sharing path es) →
          Field.ofPath naming es path ∈ survey.draft.fields
            ∧ (Field.ofPath naming es path).name = path.joined naming.delimiter
            ∧ (Field.ofPath naming es path).type.base = .string := by
  obtain ⟨es, naming, hassembled⟩ := assembled_of_job h
  have hfields := hassembled.fields_perm
  have hreport := hassembled.report
  rw [Report.ofGroups_ofEntries] at hreport
  -- the checks of the files and the entries of the corpus go over the same
  -- files
  obtain ⟨counts, hcounts⟩ :=
    Outcome.exists_mapM_eq_ok (checkFiles_eq_ok.mp (checkFiles_of_job h))
  obtain ⟨parts, hparts, hes⟩ := Outcome.bind_eq_ok.mp hassembled.entries
  cases hes
  refine ⟨_, counts, naming, hassembled.entries, hcounts, hassembled.naming?,
    ?_, ?_, Store.counts_sum hcounts hparts, ?_, hfields, hassembled.sets_eq,
    ?_, fun path hpath htwo => ?_⟩
  · rw [hreport]
  · rw [hreport]
  · rw [hreport, hfields.length_eq, List.length_map]
  · rw [hreport, Entries.mixed_eq_ncard]
  · have hnamed := Entries.mem_namedPaths_of_hasTwoKinds hpath htwo
    refine ⟨hfields.mem_iff.mpr (List.mem_map_of_mem hnamed), rfl, ?_⟩
    show (Entries.fieldType _).base = _
    rw [Entries.base_fieldType, Entries.plainType_of_hasTwoKinds htwo]

end Survey

/-! ## A corpus of all sorts -/

/-- A document with a nameless null, a key of digits, a path of nulls and a path
of two kinds. -/
def Store.assortedText : String :=
  "[null, \x7b\"a\": [1, \"x\"], \"7\": true, \"b\": null\x7d]"

/-- The entries of that document. -/
def Entries.assorted : List Entry :=
  [⟨[], .null, true⟩, ⟨["a"], .number (.ofInt 1), true⟩,
    ⟨["a"], .text "x", true⟩, ⟨["7"], .boolean true, true⟩,
    ⟨["b"], .null, true⟩]

theorem Store.holds_assorted :
    ∃ written, (ofText "d.json" assortedText).Holds
      ⟨.working, ["d.json"]⟩ written Entries.assorted
      ∧ written.lost [] false = [] := by
  have hwritten : (ofText "d.json" assortedText).writtenDocument
      ⟨.working, ["d.json"]⟩
      = .ok (.array [.leaf .null,
          .object [("a", .array [.leaf (.integer 1), .leaf (.text "x")]),
          ("7", .leaf (.boolean true)), ("b", .leaf .null)]]) :=
    writtenDocument_of_text rfl (Json.skipMark_toUTF8 rfl rfl) rfl rfl
  obtain ⟨es, hholds⟩ := exists_holds hwritten
  have hes : es = Entries.assorted := (Except.ok.inj hholds.entries_eq).symm
  exact ⟨_, hes ▸ hholds, by decide⟩

theorem Corpus.entries_assorted :
    (ofNames ["d.json"]).entries (.ofText "d.json" Store.assortedText)
      = .ok Entries.assorted := by
  obtain ⟨written, hholds, _⟩ := Store.holds_assorted
  have hparts : (ofNames ["d.json"]).files.mapM
      (Store.ofText "d.json" Store.assortedText).entriesOfFile
      = .ok [Entries.assorted] :=
    Outcome.mapM_eq_ok.mpr (congrArg (fun x => [x]) hholds.entries)
  exact entries_eq_ok hparts

theorem Survey.exists_survey_assorted :
    ∃ survey, ((job (.ofNames ["d.json"]) .usual).runOn
      ⟨.ofText "d.json" Store.assortedText, .fresh none, []⟩).1
        = .ok survey := by
  obtain ⟨written, hholds, hlost⟩ := Store.holds_assorted
  exact exists_survey_of_passes (hholds.passes hlost)

/-- Five leaves give two fields, both of them sets, one for two kinds of
value. -/
theorem Survey.report_of_assorted :
    ∃ survey, ((job (.ofNames ["d.json"]) .usual).runOn
        ⟨.ofText "d.json" Store.assortedText, .fresh none, []⟩).1 = .ok survey
      ∧ survey.report.tokens = 5 ∧ survey.report.entries = 5
      ∧ survey.report.fields = 2
      ∧ survey.report.sets = 2 ∧ survey.report.mixed = 1
      ∧ ∃ field ∈ survey.draft.fields, field.name = "a"
          ∧ field.type.base = .string := by
  obtain ⟨survey, hsurvey⟩ := exists_survey_assorted
  obtain ⟨es, _, naming, hes, _, _, htokens, hentries, _, hfields, hperm, hsets,
      hmixed, hstring⟩ := report_agrees_with_draft hsurvey
  cases hes.symm.trans Corpus.entries_assorted
  refine ⟨survey, hsurvey, htokens, hentries, ?_, ?_, ?_, ?_⟩
  · rw [hfields, hperm.length_eq]
    rfl
  · rw [hsets, hperm.countP_eq]
    rfl
  · rw [hmixed, ← Entries.mixed_eq_ncard]
    rfl
  · obtain ⟨hmem, hname, hbase⟩ :=
      hstring ["a"] (by decide) (Entries.isMixed_iff.mp rfl)
    exact ⟨_, hmem, hname.trans rfl, hbase⟩

end LeafSurvey
