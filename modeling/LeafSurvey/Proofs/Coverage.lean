import LeafSurvey.Report
import LeafSurvey.Proofs.Grouping
import Mathlib.Data.List.Perm.Subperm
import Mathlib.Data.Set.Function

/-!
# Field names and coverage

Fields are the named groups in order of their names, so up to this order their
names are the named paths of the entries, each joined. The coverage check asks
for as many fields as named groups and for a field name for every entry; the
fields of groups always pass it.

* `names_perm_joined`: the names are the joined named paths, as often as paths
  share one;
* `check_eq_ok`, `check_eq_error`: what a coverage check says about any names;
* `check_ofEntries`: the fields built from entries cover them;
* `check_ok_iff_perm`: where no two named paths share a name, the check lets
  pass the joined paths in any order, and no other names.
-/

namespace LeafSurvey

namespace Field

/-- Sorting only reorders the fields of the named groups. -/
theorem names_perm (naming : Naming) (groups : Groups) :
    ((ofGroups naming groups).map (·.name)).Perm
      (groups.named.map fun g => g.path.joined naming.delimiter) := by
  have hsorted :=
    (List.mergeSort_perm (groups.named.map (ofGroup naming)) inOrder).map
      (·.name)
  rw [List.map_map] at hsorted
  exact hsorted

theorem length_names (naming : Naming) (groups : Groups) :
    ((ofGroups naming groups).map (·.name)).length = groups.named.length := by
  rw [(names_perm naming groups).length_eq, List.length_map]

/-- The names of the fields of entries are their named paths, joined. -/
theorem names_perm_joined (naming : Naming) (es : List Entry) :
    ((ofGroups naming (Groups.ofEntries es)).map (·.name)).Perm
      ((Entries.namedPaths es).map (Path.joined naming.delimiter)) := by
  have hnames := names_perm naming (Groups.ofEntries es)
  rw [Groups.named_ofEntries, List.map_map] at hnames
  exact hnames

/-- The paths that have a field, and no others, give the names. -/
theorem mem_names {naming : Naming} {es : List Entry} {name : String} :
    name ∈ (ofGroups naming (Groups.ofEntries es)).map (·.name)
      ↔ ∃ path ∈ Entries.namedPaths es,
          path.joined naming.delimiter = name := by
  rw [(names_perm_joined naming es).mem_iff, List.mem_map]

end Field

namespace Coverage

/-- An entry has its name among the names, or its path names nothing. -/
def IsCovered (names : List String) (delimiter : String) (e : Entry) : Prop :=
  e.path.normalized ≠ [] → e.path.normalized.joined delimiter ∈ names

theorem isCovered_iff {names : List String} {delimiter : String} {e : Entry} :
    IsCovered names delimiter e
      ↔ (e.path.normalized.isEmpty
          || names.contains (e.path.normalized.joined delimiter)) = true := by
  rw [IsCovered, Bool.or_eq_true, List.isEmpty_iff, List.contains_iff_mem,
    or_iff_not_imp_left]

theorem firstGap?_of_isCovered {names : List String} {delimiter : String}
    {e : Entry} (rest : List Entry) (h : IsCovered names delimiter e) :
    firstGap? names delimiter (e :: rest) = firstGap? names delimiter rest := by
  rw [firstGap?, if_pos (isCovered_iff.mp h)]

theorem firstGap?_of_not_isCovered {names : List String} {delimiter : String}
    {e : Entry} (rest : List Entry) (h : ¬IsCovered names delimiter e) :
    firstGap? names delimiter (e :: rest)
      = some (.uncovered e.path.normalized
          (e.path.normalized.joined delimiter)) := by
  rw [firstGap?, if_neg fun hcovered => h (isCovered_iff.mpr hcovered)]

/-- There is no gap among entries whose paths name nothing or have their
name. -/
theorem firstGap?_eq_none {names : List String} {delimiter : String}
    {es : List Entry} :
    firstGap? names delimiter es = none
      ↔ ∀ e ∈ es, e.path.normalized ≠ [] →
          e.path.normalized.joined delimiter ∈ names := by
  induction es with
  | nil => exact ⟨fun _ e he => absurd he List.not_mem_nil, fun _ => rfl⟩
  | cons e rest ih =>
    rw [List.forall_mem_cons, ← ih]
    by_cases h : IsCovered names delimiter e
    · rw [firstGap?_of_isCovered rest h]
      exact ⟨fun hrest => ⟨h, hrest⟩, And.right⟩
    · rw [firstGap?_of_not_isCovered rest h]
      exact ⟨fun hgap => absurd hgap (Option.some_ne_none _),
        fun hall => absurd hall.1 h⟩

/-- The gap that is found is the first: all entries before it are covered. -/
theorem firstGap?_eq_some {names : List String} {delimiter : String}
    {es : List Entry} {gap : Failure} :
    firstGap? names delimiter es = some gap
      ↔ ∃ front e rest, es = front ++ e :: rest
          ∧ (∀ a ∈ front, IsCovered names delimiter a)
          ∧ ¬IsCovered names delimiter e
          ∧ gap = .uncovered e.path.normalized
              (e.path.normalized.joined delimiter) := by
  induction es with
  | nil =>
    constructor
    · intro h
      cases h
    · rintro ⟨front, e, rest, hes, _⟩
      exact absurd hes.symm
        (List.append_ne_nil_of_right_ne_nil _ (List.cons_ne_nil _ _))
  | cons a es ih =>
    by_cases h : IsCovered names delimiter a
    · rw [firstGap?_of_isCovered es h, ih]
      constructor
      · rintro ⟨front, e, rest, rfl, hfront, he⟩
        exact ⟨a :: front, e, rest, rfl,
          List.forall_mem_cons.mpr ⟨h, hfront⟩, he⟩
      · rintro ⟨front, e, rest, hes, hfront, he, hgap⟩
        cases front with
        | nil =>
          -- the gap is no covered entry
          cases hes
          exact absurd h he
        | cons b front =>
          cases hes
          exact ⟨front, e, rest, rfl, (List.forall_mem_cons.mp hfront).2,
            he, hgap⟩
    · rw [firstGap?_of_not_isCovered es h, Option.some.injEq]
      constructor
      · rintro rfl
        exact ⟨[], a, es, rfl, fun b hb => absurd hb List.not_mem_nil, h, rfl⟩
      · rintro ⟨front, e, rest, hes, hfront, he, hgap⟩
        cases front with
        | nil =>
          cases hes
          exact hgap.symm
        | cons b front =>
          cases hes
          exact absurd (hfront _ List.mem_cons_self) h

/-- Entries are covered when each of their named paths has its name. -/
theorem forall_isCovered_iff {names : List String} {delimiter : String}
    {es : List Entry} :
    (∀ e ∈ es, IsCovered names delimiter e)
      ↔ ∀ path ∈ Entries.namedPaths es, path.joined delimiter ∈ names := by
  constructor
  · intro h path hpath
    obtain ⟨hne, e, he, rfl⟩ := Entries.mem_namedPaths.mp hpath
    exact h e he hne
  · intro h e he hne
    exact h _ (Entries.mem_namedPaths.mpr ⟨hne, e, he, rfl⟩)

/-- A coverage check succeeds for as many fields as named groups, with a name
for every entry that can have one. -/
theorem check_eq_ok {names : List String} {groups : Groups} {es : List Entry}
    {delimiter : String} :
    check names groups es delimiter = .ok ()
      ↔ names.length = groups.named.length
        ∧ ∀ e ∈ es, e.path.normalized ≠ [] →
            e.path.normalized.joined delimiter ∈ names := by
  rw [check, ← firstGap?_eq_none]
  by_cases hlength : names.length = groups.named.length
  · rw [if_neg (not_not.mpr hlength)]
    cases hgap : firstGap? names delimiter es with
    | none => exact ⟨fun _ => ⟨hlength, rfl⟩, fun _ => rfl⟩
    | some gap =>
      constructor
      · intro h
        cases h
      · intro h
        cases h.2
  · rw [if_pos hlength]
    constructor
    · intro h
      cases h
    · intro h
      exact absurd h.1 hlength

/-- A coverage check that fails names what is wrong: the two counts, or the
first entry without its name where the counts agree. -/
theorem check_eq_error {names : List String} {groups : Groups} {es : List Entry}
    {delimiter : String} {failure : Failure} :
    check names groups es delimiter = .error failure
      ↔ (names.length ≠ groups.named.length
            ∧ failure = .fieldMismatch names.length groups.named.length)
        ∨ (names.length = groups.named.length
            ∧ firstGap? names delimiter es = some failure) := by
  rw [check]
  by_cases hlength : names.length = groups.named.length
  · rw [if_neg (not_not.mpr hlength)]
    cases hgap : firstGap? names delimiter es with
    | none => simp [hlength]
    | some gap => simp [hlength]
  · rw [if_pos hlength]
    simp [hlength, eq_comm]

/-- The fields built from entries cover these entries, whatever the
delimiter. -/
theorem check_ofEntries (naming : Naming) (es : List Entry) :
    check ((Field.ofGroups naming (Groups.ofEntries es)).map (·.name))
      (Groups.ofEntries es) es
      naming.delimiter = .ok () := by
  refine check_eq_ok.mpr ⟨Field.length_names naming _,
    forall_isCovered_iff.mpr fun path hpath => ?_⟩
  exact Field.mem_names.mpr ⟨path, hpath, rfl⟩

/-! ## Names that are told apart -/

/-- As many values as distinct ones that are all among them are these, in some
order. -/
theorem perm_iff_subset_of_nodup {α : Type} [DecidableEq α] {xs ys : List α}
    (hys : ys.Nodup) :
    xs.Perm ys ↔ xs.length = ys.length ∧ ys ⊆ xs := by
  constructor
  · intro h
    exact ⟨h.length_eq, h.symm.subset⟩
  · rintro ⟨hlength, hsub⟩
    exact ((List.subperm_of_subset hys hsub).perm_of_length_le hlength.le).symm

/-- Names of fields, whichever they are, pass the check for entries whose named
paths are told apart by their names exactly if they are these names, each once
and in any order. Otherwise the check fails: with the two counts if these
differ, and else with the path of the first entry that has no field. -/
theorem check_ok_iff_perm {es : List Entry} {delimiter : String}
    (hinj : Set.InjOn (Path.joined delimiter)
      {path | path ∈ Entries.namedPaths es})
    (fields : List Field) :
    ((Groups.ofEntries es).named.map fun g => g.path.joined delimiter).Nodup
      ∧ (check (fields.map (·.name)) (Groups.ofEntries es) es delimiter = .ok ()
          ↔ (fields.map (·.name)).Perm
              ((Groups.ofEntries es).named.map fun g =>
                g.path.joined delimiter))
      ∧ ∀ failure, check (fields.map (·.name)) (Groups.ofEntries es) es
          delimiter = .error failure
          ↔ (fields.length ≠ (Groups.ofEntries es).named.length
                ∧ failure = .fieldMismatch fields.length
                    (Groups.ofEntries es).named.length)
            ∨ (fields.length = (Groups.ofEntries es).named.length
                ∧ ∃ front e rest, es = front ++ e :: rest
                  ∧ (∀ a ∈ front, IsCovered (fields.map (·.name)) delimiter a)
                  ∧ ¬IsCovered (fields.map (·.name)) delimiter e
                  ∧ failure = .uncovered e.path.normalized
                      (e.path.normalized.joined delimiter)) := by
  have hjoined :
      ((Groups.ofEntries es).named.map fun g => g.path.joined delimiter)
      = (Entries.namedPaths es).map (Path.joined delimiter) := by
    rw [Groups.named_ofEntries, List.map_map]
    rfl
  have hnodup : ((Entries.namedPaths es).map (Path.joined delimiter)).Nodup :=
    (List.nodup_map_iff_inj_on (Entries.nodup_namedPaths es)).mpr
      fun p hp q hq hpq => hinj hp hq hpq
  refine ⟨hjoined ▸ hnodup, ?_, fun failure => ?_⟩
  · have hcount : (Groups.ofEntries es).named.length
        = ((Entries.namedPaths es).map (Path.joined delimiter)).length := by
      rw [← hjoined, List.length_map]
    rw [check_eq_ok, hjoined, perm_iff_subset_of_nodup hnodup, hcount]
    refine and_congr_right fun _ => forall_isCovered_iff.trans ?_
    rw [List.subset_def, List.forall_mem_map]
  · rw [check_eq_error, firstGap?_eq_some, List.length_map]

end Coverage

/-- A path met twice, with an entry that has no name and another path
between. -/
def Entries.twoNamed : List Entry :=
  [⟨["a"], .null, false⟩, ⟨["7"], .null, false⟩, ⟨["b", "0"], .null, true⟩,
    ⟨["a"], .null, false⟩]

theorem Entries.injOn_joined_twoNamed :
    Set.InjOn (Path.joined "___") {path | path ∈ namedPaths twoNamed} := by
  have hpaths : namedPaths twoNamed = [["a"], ["b"]] := by decide
  intro p hp q hq hpq
  simp only [hpaths, Set.mem_ofPred_eq, List.mem_cons, List.not_mem_nil,
    or_false] at hp hq
  rcases hp with rfl | rfl <;> rcases hq with rfl | rfl
  · rfl
  · exact absurd hpq (by decide)
  · exact absurd hpq (by decide)
  · rfl

/-- A field of texts with a name. -/
def Field.ofName (name : String) : Field :=
  ⟨name, .text "en", name, false, .scalar .string⟩

/-- The two names pass in the other order; a name in the place of the other, or
one too many, does not. -/
theorem Coverage.check_of_two_names :
    Set.InjOn (Path.joined "___")
      {path | path ∈ Entries.namedPaths Entries.twoNamed}
      ∧ check ((["b", "a"].map Field.ofName).map (·.name))
          (Groups.ofEntries Entries.twoNamed)
          Entries.twoNamed "___" = .ok ()
      ∧ check ((["a", "a"].map Field.ofName).map (·.name))
          (Groups.ofEntries Entries.twoNamed)
          Entries.twoNamed "___" = .error (.uncovered ["b"] "b")
      ∧ check ((["a", "b", "b"].map Field.ofName).map (·.name))
          (Groups.ofEntries Entries.twoNamed)
          Entries.twoNamed "___" = .error (.fieldMismatch 3 2) := by
  have hfields := check_ok_iff_perm Entries.injOn_joined_twoNamed
  refine ⟨Entries.injOn_joined_twoNamed, ?_, ?_, ?_⟩
  · exact (hfields (["b", "a"].map Field.ofName)).2.1.mpr (by decide)
  · refine ((hfields (["a", "a"].map Field.ofName)).2.2 _).mpr
      (.inr ⟨by decide, ?_⟩)
    refine ⟨[⟨["a"], .null, false⟩, ⟨["7"], .null, false⟩],
      ⟨["b", "0"], .null, true⟩, _, rfl, ?_, ?_, by decide⟩
    · simp only [isCovered_iff]
      decide
    · rw [isCovered_iff]
      decide
  · exact ((hfields (["a", "b", "b"].map Field.ofName)).2.2 _).mpr
      (.inl ⟨by decide, by decide⟩)

end LeafSurvey
