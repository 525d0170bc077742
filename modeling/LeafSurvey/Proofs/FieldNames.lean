import LeafSurvey.Proofs.Completion
import Mathlib.Data.Set.Function

/-!
# Names of fields

The coverage check counts fields and looks names up; it does not ask whether two
fields share a name. Here is what the names of a draft say about the paths of a
corpus.

* `fieldNames_perm_joined`: the names are the joined named paths, one for each
  path;
* `fieldNames_bijOn_iff`: they are pairwise distinct, and stand for the paths
  one to one, exactly if the delimiter joins no two named paths to one name;
* `fieldNames_of_shared_name`: a document with the keys `a___b` and `a`, `b` has
  two fields of one name.
-/

namespace LeafSurvey

/-! ## Counting in a list of images -/

section Images

variable {α β : Type} [DecidableEq β]

/-- The image of an element occurs once exactly if no other element has it. -/
theorem count_map_eq_one_iff {f : α → β} {xs : List α} (hnd : xs.Nodup) {x : α}
    (hx : x ∈ xs) :
    (xs.map f).count (f x) = 1 ↔ ∀ y ∈ xs, f y = f x → y = x := by
  -- the image occurs as often as elements have it, and these are distinct
  have hcount : (xs.map f).count (f x)
      = (xs.filter fun y => f y = f x).length := by
    rw [List.count_eq_countP, List.countP_map, List.countP_eq_length_filter]
    rfl
  have hmem : ∀ y, y ∈ (xs.filter fun y => f y = f x) ↔ y ∈ xs ∧ f y = f x := by
    intro y
    rw [List.mem_filter, decide_eq_true_eq]
  rw [hcount, List.length_eq_one_iff]
  constructor
  · rintro ⟨z, hz⟩ y hy hfy
    have hyz : y = z := List.mem_singleton.mp (hz ▸ (hmem y).mpr ⟨hy, hfy⟩)
    have hxz : x = z := List.mem_singleton.mp (hz ▸ (hmem x).mpr ⟨hx, rfl⟩)
    rw [hyz, hxz]
  · intro h
    refine ⟨x, List.perm_singleton.mp ?_⟩
    refine (List.perm_ext_iff_of_nodup (hnd.filter _)
      (List.nodup_singleton x)).mpr fun y => ?_
    rw [hmem, List.mem_singleton]
    constructor
    · rintro ⟨hy, hfy⟩
      exact h y hy hfy
    · rintro rfl
      exact ⟨hx, rfl⟩

end Images

namespace Survey

/-- The names of the fields of a survey. -/
def fieldNames (survey : Survey) : List String :=
  survey.draft.fields.map (·.name)

/-- With texts as settings the names are the named paths, joined by the
delimiter. -/
theorem Assembled.fieldNames_perm_joined {c : Corpus} {settings : Settings}
    {s : Store} {es : List Entry} {naming : Naming} {survey : Survey}
    (h : Assembled c settings s es naming survey) (htexts : settings.HasTexts) :
    survey.fieldNames.Perm
      ((Entries.namedPaths es).map (Path.joined settings.delimiter.plain)) := by
  have hnames := Field.names_perm_joined naming es
  rw [← Draft.fields_of?_eq_ok h.draft] at hnames
  refine hnames.trans
    (List.Perm.of_eq (List.map_congr_left fun path hpath => ?_))
  rw [h.delimiter_eq htexts hpath]

/-- A survey that succeeds has a field for every named path, under its joined
name, and no other. A name stands for one path alone exactly if the delimiter
joins no other named path to it; so the names are pairwise distinct, and joining
maps the named paths to them one to one, exactly if joining tells the named
paths apart. -/
theorem fieldNames_bijOn_iff {c : Corpus} {settings : Settings} {m : Machine}
    {survey : Survey} (htexts : settings.HasTexts)
    (h : ((job c settings).runOn m).1 = .ok survey) :
    ∃ es, c.entries m.store = .ok es
      ∧ survey.fieldNames.length = (Entries.namedPaths es).length
      ∧ (∀ name, name ∈ survey.fieldNames
          ↔ ∃ path ∈ Entries.namedPaths es,
              path.joined settings.delimiter.plain = name)
      ∧ (∀ path ∈ Entries.namedPaths es,
          survey.fieldNames.count (path.joined settings.delimiter.plain) = 1
            ↔ ∀ other ∈ Entries.namedPaths es,
              other.joined settings.delimiter.plain
                = path.joined settings.delimiter.plain → other = path)
      ∧ (survey.fieldNames.Nodup
            ∧ Set.BijOn (Path.joined settings.delimiter.plain)
                {path | path ∈ Entries.namedPaths es}
                {name | name ∈ survey.fieldNames}
          ↔ Set.InjOn (Path.joined settings.delimiter.plain)
              {path | path ∈ Entries.namedPaths es}) := by
  obtain ⟨es, naming, hassembled⟩ := assembled_of_job h
  have hperm := hassembled.fieldNames_perm_joined htexts
  have hmem : ∀ name, name ∈ survey.fieldNames
      ↔ ∃ path ∈ Entries.namedPaths es, path.joined settings.delimiter.plain
          = name := by
    intro name
    rw [hperm.mem_iff, List.mem_map]
  refine ⟨es, hassembled.entries, ?_, hmem, fun path hpath => ?_, ?_⟩
  · rw [hperm.length_eq, List.length_map]
  · rw [hperm.count_eq]
    exact count_map_eq_one_iff (Entries.nodup_namedPaths es) hpath
  · rw [hperm.nodup_iff,
      List.nodup_map_iff_inj_on (Entries.nodup_namedPaths es)]
    constructor
    · rintro ⟨_, hbij⟩
      exact hbij.injOn
    · intro hinj
      refine ⟨fun p hp q hq hpq => hinj hp hq hpq, fun path hpath => ?_, hinj,
        fun name hname => ?_⟩
      · exact (hmem _).mpr ⟨path, hpath, rfl⟩
      · exact (hmem _).mp hname

/-! ## Two fields of one name -/

/-- The two paths give two fields of one name, and the survey does not
notice. -/
theorem Assembled.fieldNames_of_shared_name {es : List Entry} {naming : Naming}
    {survey : Survey}
    (h : Assembled Corpus.sharedName .usual Store.sharedName es naming survey) :
    survey.fieldNames = ["a___b", "a___b"] := by
  obtain ⟨es', hholds⟩ := Store.exists_holds Store.writtenDocument_sharedName
  have hes' : es' = [⟨["a___b"], .number (.ofInt 1), false⟩,
      ⟨["a", "b"], .number (.ofInt 2), false⟩] :=
      (Except.ok.inj hholds.entries_eq).symm
  have hes : es = es' := by
    have hentries : Corpus.sharedName.entries Store.sharedName = .ok es' := by
      refine Outcome.bind_eq_ok.mpr ⟨[es'], Outcome.mapM_eq_ok.mpr ?_,
        congrArg _ (List.append_nil es')⟩
      exact congrArg (fun x => [x]) hholds.entries
    exact Except.ok.inj (h.entries.symm.trans hentries)
  have hperm := h.fieldNames_perm_joined ⟨rfl, rfl⟩
  have hpaths : (Entries.namedPaths es).map
      (Path.joined Settings.usual.delimiter.plain)
      = List.replicate 2 "a___b" := by
    rw [hes, hes']
    rfl
  rw [hpaths] at hperm
  exact List.perm_replicate.mp hperm

theorem exists_survey_sharedName :
    ∃ survey,
      ((job Corpus.sharedName .usual).runOn
        ⟨Store.sharedName, .fresh none, []⟩).1 = .ok survey
      ∧ survey.fieldNames = ["a___b", "a___b"] := by
  have hanswer : ∃ survey, ((job Corpus.sharedName .usual).runOn
      ⟨Store.sharedName, .fresh none, []⟩).1 = .ok survey :=
    answer_of_passes ⟨rfl, rfl⟩ Store.passes_sharedName
  obtain ⟨survey, hsurvey⟩ := hanswer
  obtain ⟨es, naming, hassembled⟩ := assembled_of_job hsurvey
  exact ⟨survey, hsurvey, hassembled.fieldNames_of_shared_name⟩

/-- Joining does not tell the two paths apart. -/
theorem not_injOn_of_shared_name :
    ∃ es, Corpus.sharedName.entries Store.sharedName = .ok es
      ∧ ¬Set.InjOn (Path.joined "___")
          {path | path ∈ Entries.namedPaths es} := by
  obtain ⟨survey, hsurvey, hnames⟩ := exists_survey_sharedName
  obtain ⟨es, hes, _, _, _, hbij⟩ := fieldNames_bijOn_iff ⟨rfl, rfl⟩ hsurvey
  refine ⟨es, hes, fun hinj => ?_⟩
  have hnodup := (hbij.mpr hinj).1
  rw [hnames] at hnodup
  exact absurd hnodup (by decide)

/-- A corpus that can be opened and surveyed, with two fields of one name in the
draft. -/
theorem shared_name_occurs_twice :
    Corpus.open? Store.sharedName ⟨.working, []⟩ = .ok Corpus.sharedName
      ∧ ∃ survey,
          ((job Corpus.sharedName .usual).runOn
            ⟨Store.sharedName, .fresh none, []⟩).1 = .ok survey
        ∧ survey.fieldNames = ["a___b", "a___b"]
        ∧ ¬survey.fieldNames.Nodup := by
  obtain ⟨survey, hsurvey, hnames⟩ := exists_survey_sharedName
  refine ⟨Store.open?_sharedName, survey, hsurvey, hnames, ?_⟩
  rw [hnames]
  decide

end Survey

end LeafSurvey
