import LeafSurvey.Proofs.Completion
import LeafSurvey.Proofs.FieldTypes

/-!
# What a survey takes in of entries

Of an entry a survey takes in the path, the kind of the value and the mark: its
`Entry.outline`. Report and fields do not depend on anything else, and of the
order of the entries they keep only the order of fields that share a name.

* `Alike`: two sequences of entries have the same outlines, in any order;
* `Alike.fieldType_eq`, `Alike.namedPaths_perm`: they have the same named paths,
  with the same types;
* `Assembled.agree`: surveys assembled from them have one report, and the same
  fields up to their order.
-/

namespace LeafSurvey

/-- What a survey takes in of an entry. -/
def Entry.outline (e : Entry) : Placed Kind :=
  ⟨e.path, e.value.kind, e.inArray⟩

namespace Entries

/-- Two sequences of entries have the same outlines, in any order. -/
def Alike (es es' : List Entry) : Prop :=
  (es.map Entry.outline).Perm (es'.map Entry.outline)

theorem alike_of_perm {es es' : List Entry} (h : es.Perm es') : Alike es es' :=
  h.map _

theorem alike_of_outlines_eq {es es' : List Entry}
    (h : es.map Entry.outline = es'.map Entry.outline) :
    Alike es es' :=
  .of_eq h

theorem outlines_sharing (path : Path) (es : List Entry) :
    (sharing path es).map Entry.outline
      = (es.map Entry.outline).filter fun o => o.path.normalized = path := by
  rw [List.filter_map]
  rfl

theorem namedPaths_eq_of_outlines_eq {es es' : List Entry}
    (h : es.map Entry.outline = es'.map Entry.outline) :
    namedPaths es = namedPaths es' := by
  have hpaths := congrArg (List.map fun o => Path.normalized o.path) h
  rw [List.map_map, List.map_map] at hpaths
  exact congrArg (fun paths => paths.eraseDups.filter fun path =>
    !path.isEmpty) hpaths

theorem sortedPaths_eq_of_outlines_eq {delimiter : String} {es es' : List Entry}
    (h : es.map Entry.outline = es'.map Entry.outline) :
    sortedPaths delimiter es = sortedPaths delimiter es' := by
  rw [sortedPaths, sortedPaths, namedPaths_eq_of_outlines_eq h]

namespace Alike

variable {es es' : List Entry}

theorem length_eq (h : Alike es es') : es.length = es'.length := by
  have hlength := List.Perm.length_eq h
  rwa [List.length_map, List.length_map] at hlength

theorem sharing (h : Alike es es') (path : Path) :
    Alike (sharing path es) (sharing path es') := by
  rw [Alike, outlines_sharing, outlines_sharing]
  exact List.Perm.filter _ h

/-- What is seen of an entry's outline is seen in both sequences. -/
theorem exists_iff (h : Alike es es') (p : Placed Kind → Prop) :
    (∃ e ∈ es, p e.outline) ↔ ∃ e ∈ es', p e.outline := by
  have hmem : ∀ xs : List Entry, (∃ e ∈ xs, p e.outline)
      ↔ ∃ o ∈ xs.map Entry.outline, p o := by
    intro xs
    simp
  rw [hmem, hmem]
  exact exists_congr fun o => and_congr_left fun _ => List.Perm.mem_iff h

/-! ## Types -/

theorem kinds_eq (h : Alike es es') : kinds es = kinds es' := by
  refine List.filter_congr fun kind _ => Bool.eq_iff_iff.mpr ?_
  rw [List.any_eq_true, List.any_eq_true]
  exact h.exists_iff fun o => (o.value == kind) = true

theorem isPlural_eq (h : Alike es es') : isPlural es = isPlural es' := by
  rw [Bool.eq_iff_iff, isPlural_iff, isPlural_iff]
  exact h.exists_iff fun o => o.inArray = true

theorem isMixed_eq (h : Alike es es') : isMixed es = isMixed es' := by
  rw [isMixed, isMixed, h.kinds_eq]

theorem fieldType_eq (h : Alike es es') : fieldType es = fieldType es' := by
  rw [fieldType, fieldType, h.isPlural_eq, plainType, plainType, h.kinds_eq]

/-! ## Paths and fields -/

theorem namedPaths_perm (h : Alike es es') :
    (namedPaths es).Perm (namedPaths es') := by
  refine (List.perm_ext_iff_of_nodup (nodup_namedPaths es)
    (nodup_namedPaths es')).mpr fun path => ?_
  rw [mem_namedPaths, mem_namedPaths]
  exact and_congr_right fun _ => h.exists_iff fun o => o.path.normalized = path

theorem ofPath_eq (h : Alike es es') (naming : Naming) (path : Path) :
    Field.ofPath naming es path = Field.ofPath naming es' path := by
  rw [Field.ofPath, Field.ofPath, Field.ofGroup, Field.ofGroup,
    (h.sharing path).fieldType_eq]

theorem fields_perm (h : Alike es es') (naming : Naming) :
    (Field.ofGroups naming (Groups.ofEntries es)).Perm
      (Field.ofGroups naming (Groups.ofEntries es')) := by
  refine (Field.ofGroups_perm naming es).trans
    (.trans ?_ (Field.ofGroups_perm naming es').symm)
  rw [funext (h.ofPath_eq naming)]
  exact h.namedPaths_perm.map _

/-- Where the paths stand in one order, so do the fields. -/
theorem fields_eq (h : Alike es es') {naming : Naming}
    (hsorted : sortedPaths naming.delimiter es
      = sortedPaths naming.delimiter es') :
    Field.ofGroups naming (Groups.ofEntries es)
      = Field.ofGroups naming (Groups.ofEntries es') := by
  rw [Field.ofGroups_ofEntries, Field.ofGroups_ofEntries, hsorted,
    funext (h.ofPath_eq naming)]

theorem report_eq (h : Alike es es') (files tokens entries : Nat) :
    Report.ofGroups files tokens entries (Groups.ofEntries es)
      = Report.ofGroups files tokens entries (Groups.ofEntries es') := by
  have hplural : ∀ path,
      isPlural (Entries.sharing path es)
      = isPlural (Entries.sharing path es') :=
    fun path => (h.sharing path).isPlural_eq
  have hmixed : ∀ path,
      isMixed (Entries.sharing path es) = isMixed (Entries.sharing path es') :=
    fun path => (h.sharing path).isMixed_eq
  rw [Report.ofGroups_ofEntries, Report.ofGroups_ofEntries,
    h.namedPaths_perm.length_eq, h.namedPaths_perm.countP_eq,
    h.namedPaths_perm.countP_eq, funext hplural, funext hmixed]

/-- There is a path to be named in both sequences, or in neither. -/
theorem naming?_eq (h : Alike es es') (settings : Settings) :
    settings.naming? (Groups.ofEntries es)
      = settings.naming? (Groups.ofEntries es') := by
  have hempty : (Groups.ofEntries es).named.isEmpty
      = (Groups.ofEntries es').named.isEmpty := by
    rw [Groups.named_ofEntries, Groups.named_ofEntries, List.isEmpty_map,
      List.isEmpty_map, Bool.eq_iff_iff, List.isEmpty_iff_length_eq_zero,
      List.isEmpty_iff_length_eq_zero, h.namedPaths_perm.length_eq]
  rw [Settings.naming?, Settings.naming?, hempty]

end Alike

end Entries

/-! ## Surveys -/

/-- Surveys assembled from as many files with alike entries report the same and
have the same fields. They are one where the paths stand in one order. -/
theorem Survey.Assembled.agree {c₁ c₂ : Corpus} {settings : Settings}
    {s₁ s₂ : Store} {es₁ es₂ : List Entry} {naming₁ naming₂ : Naming}
    {survey₁ survey₂ : Survey}
    (h₁ : Assembled c₁ settings s₁ es₁ naming₁ survey₁)
    (h₂ : Assembled c₂ settings s₂ es₂ naming₂ survey₂)
    (hfiles : c₁.files.length = c₂.files.length)
    (halike : Entries.Alike es₁ es₂) :
    survey₁.report = survey₂.report
      ∧ survey₁.draft.fields.Perm survey₂.draft.fields
      ∧ (Entries.sortedPaths naming₁.delimiter es₁
          = Entries.sortedPaths naming₁.delimiter es₂ →
          survey₁ = survey₂) := by
  -- the naming looks at the groups only to see whether there is a path to name
  have hnaming : naming₁ = naming₂ :=
    Except.ok.inj
      (h₁.naming?.symm.trans ((halike.naming?_eq settings).trans h₂.naming?))
  subst hnaming
  have hreport : survey₁.report = survey₂.report := by
    rw [h₁.report, h₂.report, hfiles, halike.length_eq, halike.report_eq]
  refine ⟨hreport, ?_, fun hsorted => ?_⟩
  · rw [Draft.fields_of?_eq_ok h₁.draft, Draft.fields_of?_eq_ok h₂.draft]
    exact halike.fields_perm naming₁
  · have hdraft := h₁.draft
    rw [halike.fields_eq hsorted, h₂.draft] at hdraft
    cases survey₁
    cases survey₂
    cases hreport
    cases hdraft
    rfl

end LeafSurvey
