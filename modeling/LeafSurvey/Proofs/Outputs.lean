import LeafSurvey.Proofs.Commands
import LeafSurvey.Proofs.Faults
import LeafSurvey.Proofs.Rereading

/-!
# Outputs that cannot be written

The report and the draft are written one after the other, each in its place and
from its first byte on. Writing that fails does not take back what it has placed
by then. So files stay as they are where no report can be placed; after any
later failure the report is in its place, and the draft may be there as far as
its layout goes.

* `file?_of_leadsTo`, `file?_of_receives`: what placing a file means for every
  other file;
* `writeValue_eq_error`: one output that fails, with what it leaves;
* `files_of_failed_write`: both outputs, for every way in which writing them
  fails.
-/

namespace LeafSurvey

/-! ## Files by location -/

namespace Store

/-- The bytes of the file at a location, if there is a file. -/
def file? (s : Store) (q : Location) : Option ByteArray :=
  match s.lookup q with
  | some (.file bytes) => some bytes
  | _ => none

variable {s t : Store} {p : FilePath}

/-- A directory that is new is in no file's place. -/
theorem file?_of_kept {q : Location} {led : Prop}
    (h : t.lookup q = s.lookup q ∨ s.lookup q = none
      ∧ t.lookup q = some .directory ∧ led) :
    t.file? q = s.file? q := by
  unfold file?
  rcases h with hsame | ⟨hnone, hmade, _⟩
  · rw [hsame]
  · rw [hnone, hmade]

theorem file?_of_leadsTo (h : s.LeadsTo p t) (q : Location) :
    t.file? q = s.file? q :=
  file?_of_kept (h q)

theorem file?_of_receives {bytes : ByteArray} {place : Location}
    (h : s.Receives p bytes place t) (q : Location) :
    t.file? q = if q = place then some bytes else s.file? q := by
  by_cases hq : q = place
  · rw [if_pos hq, hq, file?, h.lookup]
  · rw [if_neg hq]
    exact file?_of_kept (h.others q hq)

/-- A file that is received comes before those that were placed earlier. -/
theorem file?_of_receives_after {s₀ : Store} {bytes : ByteArray}
    {place : Location} {placed : List (Location × ByteArray)}
    (hs : ∀ q, s.file? q = (placed.lookup q).or (s₀.file? q))
    (h : s.Receives p bytes place t) (q : Location) :
    t.file? q = (((place, bytes) :: placed).lookup q).or (s₀.file? q) := by
  rw [file?_of_receives h, List.lookup_cons]
  by_cases hq : q = place
  · rw [if_pos hq, beq_iff_eq.mpr hq]
    rfl
  · rw [if_neg hq, beq_eq_false_iff_ne.mpr hq, hs]

/-- Where a file cannot be placed, no file can, and the attempt makes
directories at most. -/
theorem place_eq_error {left : Store} {bytes : ByteArray} {fault : FileFault}
    (h : s.place p bytes = (.error fault, left)) :
    ¬s.Accepts p ∧ s.LeadsTo p.parent left := by
  have hleads := leadsTo_ensureDirectories s p.parent
  refine ⟨fun haccepts => ?_, ?_⟩
  · obtain ⟨left', hplace⟩ := haccepts.place bytes
    cases h.symm.trans hplace
  · unfold place at h
    rcases hmade : s.ensureDirectories p.parent with ⟨fault' | ⟨⟩, made⟩
    · rw [hmade] at h hleads
      cases h
      exact hleads
    · rw [hmade] at h hleads
      cases hwrite : made.write p bytes with
      | error fault' =>
        simp only [hwrite] at h
        cases h
        exact hleads
      | ok written => simp [hwrite] at h

end Store

namespace Survey

/-! ## One output -/

/-- An output that fails has made directories at most, or it has placed a file
that ends where its layout breaks off. -/
theorem writeValue_eq_error {path : FilePath} {v : Value} {s left : Store}
    {failure : Failure} (h : writeValue path v s = (.error failure, left)) :
    (∃ fault, failure = .file fault ∧ fault.OnWayTo path ∧ ¬s.Accepts path
        ∧ s.LeadsTo path.parent left)
      ∨ ∃ cause place, failure = .misuse (.ofLayout cause)
          ∧ (Json.fileText v).broken = some cause
        ∧ s.Accepts path ∧ s.Receives path (fileBytes v) place left := by
  unfold writeValue at h
  rcases hplace : s.place path (fileBytes v) with ⟨fault | _, made⟩ <;>
    simp only [← fileBytes.eq_1, hplace] at h
  · cases h
    exact .inl ⟨fault, rfl, Store.onWayTo_of_place hplace,
      Store.place_eq_error hplace⟩
  · split at h
    · cases h
    · rename_i cause hbroken
      cases h
      obtain ⟨place, hreceived⟩ := Store.receives_place hplace
      exact .inr ⟨cause, place, rfl, hbroken, ⟨_, _, hplace⟩, hreceived⟩

/-! ## Both outputs -/

/-- How the writing of a survey has broken off, with the failure and the files
placed by then, the last one first. -/
inductive BrokenOff (survey : Survey) (settings : Settings) (m left : Machine) :
    Failure → List (Location × ByteArray) → Prop
  | beforeReport (fault : FileFault) (hway : fault.OnWayTo settings.reportFile)
      (hrefused : ¬m.store.Accepts settings.reportFile) :
      BrokenOff survey settings m left (.file fault) []
  | inReport (cause : Json.LayoutFault) (reportPlace : Location)
      (hreport : left.store.resolve settings.reportFile = .ok reportPlace)
      (hbroken : (Json.fileText survey.report.toValue).broken = some cause) :
      BrokenOff survey settings m left (.misuse (.ofLayout cause))
        [(reportPlace, fileBytes survey.report.toValue)]
  | beforeDraft (fault : FileFault) (reportPlace : Location) (made : Store)
      (hreport : left.store.resolve settings.reportFile = .ok reportPlace)
      (hmade : writeValue settings.reportFile survey.report.toValue m.store
        = (.ok (), made))
      (hway : fault.OnWayTo settings.draftFile)
      (hrefused : ¬made.Accepts settings.draftFile) :
      BrokenOff survey settings m left (.file fault)
        [(reportPlace, fileBytes survey.report.toValue)]
  | inDraft (cause : Json.LayoutFault) (reportPlace draftPlace : Location)
      (hreport : left.store.resolve settings.reportFile = .ok reportPlace)
      (hdraft : left.store.resolve settings.draftFile = .ok draftPlace)
      (hbroken : (Json.fileText survey.draft.toValue).broken = some cause) :
      BrokenOff survey settings m left (.misuse (.ofLayout cause))
        [(draftPlace, fileBytes survey.draft.toValue),
          (reportPlace, fileBytes survey.report.toValue)]
  | beforeNotice (failure : Failure) (reportPlace draftPlace : Location)
      (hunshown : m.console.failure? (survey.closing settings) = some failure)
      (hreport : left.store.resolve settings.reportFile = .ok reportPlace)
      (hdraft : left.store.resolve settings.draftFile = .ok draftPlace) :
      BrokenOff survey settings m left failure
        [(draftPlace, fileBytes survey.draft.toValue),
          (reportPlace, fileBytes survey.report.toValue)]

variable {survey : Survey} {settings : Settings}

theorem exists_brokenOff {m left : Machine} {failure : Failure}
    (h : (survey.write settings).runOn m = (.error failure, left)) :
    ∃ placed, BrokenOff survey settings m left failure placed
      ∧ (∀ q, left.store.file? q = (placed.lookup q).or (m.store.file? q))
      ∧ (placed = [] ↔ ¬m.store.Accepts settings.reportFile) := by
  have hnothing : ∀ q, m.store.file? q
      = (([] : List (Location × ByteArray)).lookup q).or (m.store.file? q) :=
          fun _ => rfl
  rcases write_eq_error h with hreport | ⟨made, hreport, hdraft⟩
  · rcases writeValue_eq_error hreport with
      ⟨fault, rfl, hway, hrefused, hleads⟩ | ⟨cause, place, rfl, hbroken,
        haccepts, hreceived⟩
    · exact ⟨[], .beforeReport fault hway hrefused,
        Store.file?_of_leadsTo hleads, by simp [hrefused]⟩
    · exact ⟨_, .inReport cause place hreceived.resolve hbroken,
        Store.file?_of_receives_after hnothing hreceived, by simp [haccepts]⟩
  -- the report is in its place, and stays there
  have hplaced := (writeValue_eq_ok.mp hreport).1
  have haccepts : m.store.Accepts settings.reportFile := ⟨_, _, hplaced⟩
  obtain ⟨reportPlace, hfirst⟩ := Store.receives_place hplaced
  have hfiles := Store.file?_of_receives_after hnothing hfirst
  rcases hdraft with hdraft | ⟨hdraft, hunshown⟩
  · rcases writeValue_eq_error hdraft with
      ⟨fault, rfl, hway, hrefused, hleads⟩
        | ⟨cause, place, rfl, hbroken, _, hsecond⟩
    · have hkept := hleads.keepsDirectories.resolve hfirst.resolve
      refine ⟨_,
        .beforeDraft fault reportPlace made hkept hreport hway hrefused,
        fun q => ?_, by simp [haccepts]⟩
      rw [Store.file?_of_leadsTo hleads, hfiles]
    · have hkept := hsecond.keepsDirectories.resolve hfirst.resolve
      exact ⟨_, .inDraft cause reportPlace place hkept hsecond.resolve hbroken,
        Store.file?_of_receives_after hfiles hsecond, by simp [haccepts]⟩
  · obtain ⟨draftPlace, hsecond⟩ :=
      Store.receives_place (writeValue_eq_ok.mp hdraft).1
    have hkept := hsecond.keepsDirectories.resolve hfirst.resolve
    exact ⟨_,
      .beforeNotice failure reportPlace draftPlace hunshown hkept
      hsecond.resolve, Store.file?_of_receives_after hfiles hsecond, by
      simp [haccepts]⟩

/-- Writing that fails has placed no file, the report, or both outputs, each
with the bytes of its layout up to where it breaks off; every other file is as
it was, and nothing is taken back. So all files are as they were exactly if
those that have been placed held the same bytes before. -/
theorem files_of_failed_write {m left : Machine} {failure : Failure}
    (h : (survey.write settings).runOn m = (.error failure, left)) :
    ∃ placed, BrokenOff survey settings m left failure placed
      ∧ (∀ q, left.store.file? q = (placed.lookup q).or (m.store.file? q))
      ∧ (placed = [] ↔ ¬m.store.Accepts settings.reportFile)
      ∧ ((∀ q, left.store.file? q = m.store.file? q)
          ↔ ∀ q bytes, placed.lookup q = some bytes →
              m.store.file? q = some bytes) := by
  obtain ⟨placed, hbroken, hfiles, hnone⟩ := exists_brokenOff h
  refine ⟨placed, hbroken, hfiles, hnone, fun hsame q bytes hq => ?_,
    fun hheld q => ?_⟩
  · rw [← hsame q, hfiles, hq, Option.some_or]
  · rw [hfiles]
    cases hq : placed.lookup q with
    | none => rw [Option.none_or]
    | some bytes => rw [hheld q bytes hq, Option.some_or]

/-- The usual settings, but for a day as name. -/
def datedSettings : Settings :=
  { Settings.usual with name := .date ⟨2020, 1, 1⟩ }

/-- What a survey of one number finds with these settings. -/
def dated : Survey where
  report := ⟨1, 1, 1, 0, 0, 0⟩
  draft :=
    ⟨.text "Brand", .text "en", .date ⟨2020, 1, 1⟩,
      .text "Fields definitions for brand (top-level category)",
      [.chars "category"], []⟩

/-- A day has no document form: the report is written, and the draft up to the
day. -/
theorem write_dated : ∃ cause left,
    (dated.write datedSettings).runOn ⟨.single, .fresh none, []⟩
        = (.error (.misuse (.ofLayout cause)), left)
      ∧ left.store.file? ["verification.json"]
          = some (fileBytes dated.report.toValue)
      ∧ left.store.file? ["brand-type.json"]
        = some "\x7b\n  \"key\": \"Brand\",\n  \"name\": \x7b\n    \"en\": ".toUTF8 := by
  have hreport : (Json.fileText dated.report.toValue).broken = none :=
    Option.isNone_iff_eq_none.mp (by decide +kernel)
  have hdraft : (Json.fileText dated.draft.toValue).broken
      = some (.value (.date ⟨2020, 1, 1⟩)) :=
    rfl
  have hbytes : fileBytes dated.draft.toValue
      = "\x7b\n  \"key\": \"Brand\",\n  \"name\": \x7b\n    \"en\": ".toUTF8 := by
    have hitems : (Json.fileText dated.draft.toValue).items
        = "\x7b\n  \"key\": \"Brand\",\n  \"name\": \x7b\n    \"en\": ".toList := by
      decide +kernel
    rw [fileBytes, hitems, String.ofList_toList]
  have hplace : ∀ bytes bytes', ∃ made left,
      Store.single.place datedSettings.reportFile bytes = (.ok (), made)
        ∧ made.place datedSettings.draftFile bytes' = (.ok (), left)
        ∧ left.file? ["verification.json"] = some bytes
        ∧ left.file? ["brand-type.json"] = some bytes' :=
    fun _ _ => ⟨_, _, rfl, rfl, rfl, rfl⟩
  obtain ⟨made, left, hmade, hleft, hfirst, hsecond⟩ :=
    hplace (fileBytes dated.report.toValue) (fileBytes dated.draft.toValue)
  refine ⟨.value (.date ⟨2020, 1, 1⟩), ⟨left, .fresh none, []⟩, ?_, hfirst, ?_⟩
  · rw [write, Job.runOn_bind, Job.runOn_changing,
      writeValue_eq_ok.mpr ⟨hmade, hreport⟩]
    simp only [Job.runOn_bind, Job.runOn_changing, Machine.withStore,
      writeValue_of_broken hleft hdraft]
  · rw [hsecond, hbytes]

/-- After the failure there is a whole report and half a draft, and before there
was neither. -/
theorem failed_write_is_not_undone : ∃ failure left,
    (dated.write datedSettings).runOn ⟨.single, .fresh none, []⟩
      = (.error failure, left)
      ∧ Store.single.file? ["verification.json"] = none
      ∧ Store.single.file? ["brand-type.json"] = none
      ∧ left.store.file? ["verification.json"] ≠ none
      ∧ left.store.file? ["brand-type.json"]
        = some "\x7b\n  \"key\": \"Brand\",\n  \"name\": \x7b\n    \"en\": ".toUTF8 := by
  obtain ⟨cause, left, hrun, hreport, hdraft⟩ := write_dated
  exact ⟨_, left, hrun, rfl, rfl, by simp [hreport], hdraft⟩

theorem files_of_dated : ∃ failure left,
    (dated.write datedSettings).runOn ⟨.single, .fresh none, []⟩
      = (.error failure, left)
      ∧ ∃ placed, BrokenOff dated datedSettings
          ⟨.single, .fresh none, []⟩ left failure placed
        ∧ (∀ q, left.store.file? q
            = (placed.lookup q).or (Store.single.file? q))
        ∧ (placed = [] ↔ ¬Store.single.Accepts datedSettings.reportFile)
        ∧ ((∀ q, left.store.file? q = Store.single.file? q)
            ↔ ∀ q bytes, placed.lookup q = some bytes → Store.single.file? q
                = some bytes) := by
  obtain ⟨cause, left, hrun, _⟩ := write_dated
  exact ⟨_, left, hrun, files_of_failed_write hrun⟩

end Survey

end LeafSurvey
