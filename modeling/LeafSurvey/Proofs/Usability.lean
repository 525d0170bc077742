import LeafSurvey.Proofs.Forms
import LeafSurvey.Proofs.Outputs

/-!
# Settings that can be used

Settings are accepted with values of any sort, and each value is looked at only
where it is used: the delimiter when there are paths to join, the locale as a
key, the others when the draft is written, and the output paths once more when
the closing notice is laid out. This module says which settings pass all these
places, and where those that do not pass are found out.

* `exists_assembled_of_usable`: usable settings are surveyed wherever all files
  pass;
* `run?_of_passes`: of settings, only a misuse keeps a survey from succeeding
  where all files pass;
* `writeValue_of_whole`, `write_of_not_laysOut`: outputs that have a form and
  room are written, and then the closing notice is shown or refused;
* `delivery_eq_error_of_usable`, `delivery_of_misused`,
  `delivery_of_not_laysOut`: survey, outputs and notice together.
-/

namespace LeafSurvey

/-- There are paths in the corpus that a field can be named for. -/
def Corpus.HasNames (c : Corpus) (s : Store) : Prop :=
  ∃ es, c.entries s = .ok es ∧ Entries.namedPaths es ≠ []

/-- What has a text as a key is a key. -/
theorem Value.isKey_of_keyText? {v : Value}
    (h : (Json.keyText? v).isSome = true) :
    v.isKey = true := by
  cases v with
  | list items => simp [Json.keyText?] at h
  | pair k v => simp [Json.keyText?] at h
  | set items => simp [Json.keyText?] at h
  | map entries => simp [Json.keyText?] at h
  | enclosingList => simp [Json.keyText?] at h
  | enclosingPair => simp [Json.keyText?] at h
  | enclosingMap => simp [Json.keyText?] at h
  | _ => rfl

namespace Settings

/-- The configured values can be used wherever they are, the delimiter at least
where it joins something. -/
structure IsUsable (settings : Settings) (joins : Prop) : Prop where
  delimiter : joins → ∃ d, settings.delimiter = .text d
  locale : (Json.keyText? settings.locale).isSome = true
  key : settings.key.hasForm = true
  name : settings.name.hasForm = true
  description : settings.description.hasForm = true
  resourceTypes : ∀ w ∈ settings.resourceTypes, (Value.ofWord w).hasForm = true
  paths : ∀ part ∈ settings.reportFile.parts ++ settings.draftFile.parts,
    '\x00' ∉ part.toList

/-- Some configured value cannot be used where it is. -/
def IsMisused (settings : Settings) (joins : Prop) : Prop :=
  joins ∧ settings.delimiter.isText = false
    ∨ (Json.keyText? settings.locale).isSome = false
    ∨ settings.key.hasForm = false ∨ settings.name.hasForm = false
    ∨ settings.description.hasForm = false
    ∨ ∃ w ∈ settings.resourceTypes, (Value.ofWord w).hasForm = false

/-- There is room for both outputs. -/
def HasRoom (settings : Settings) (s : Store) : Prop :=
  ∀ bytes, ∃ made, s.place settings.reportFile bytes = (.ok (), made)
    ∧ made.Accepts settings.draftFile

/-! ## Naming -/

variable {settings : Settings}

/-- A locale with a text as a key is a key. -/
theorem localeKey?_of_keyText?
    (h : (Json.keyText? settings.locale).isSome = true) :
    settings.localeKey? = .ok settings.locale := by
  rw [localeKey?, if_pos (Value.isKey_of_keyText? h)]

theorem localeKey?_eq_ok {locale : Value}
    (h : settings.localeKey? = .ok locale) :
    locale = settings.locale := by
  unfold localeKey? at h
  split at h
  · cases h
    rfl
  · cases h

theorem localeKey?_eq_error {failure : Failure}
    (h : settings.localeKey? = .error failure) :
    ∃ cause, failure = .misuse cause := by
  unfold localeKey? at h
  split at h
  · cases h
  · cases h
    exact ⟨_, rfl⟩

theorem delimiterText?_eq_ok {v : Value} {d : String}
    (h : delimiterText? v = .ok d) : v.isText = true := by
  cases v with
  | text d => rfl
  | points codes => rfl
  | _ => cases h

theorem delimiterText?_eq_error {v : Value} {failure : Failure}
    (h : delimiterText? v = .error failure) :
    ∃ cause, failure = .misuse cause := by
  cases v with
  | text d => cases h
  | points codes => cases h
  | _ =>
    cases h
    exact ⟨_, rfl⟩

theorem naming?_eq_ok {groups : Groups} {naming : Naming}
    (h : settings.naming? groups = .ok naming) :
    naming.locale = settings.locale
      ∧ (groups.named ≠ [] → settings.delimiter.isText = true) := by
  unfold naming? at h
  split at h
  · rename_i hnone
    cases h
    exact ⟨rfl, fun hsome => absurd (List.isEmpty_iff.mp hnone) hsome⟩
  · obtain ⟨d, hd, h⟩ := Outcome.bind_eq_ok.mp h
    obtain ⟨locale, hlocale, h⟩ := Outcome.bind_eq_ok.mp h
    cases h
    exact ⟨localeKey?_eq_ok hlocale, fun _ => delimiterText?_eq_ok hd⟩

theorem naming?_eq_error {groups : Groups} {failure : Failure}
    (h : settings.naming? groups = .error failure) :
    ∃ cause, failure = .misuse cause := by
  unfold naming? at h
  split at h
  · cases h
  rcases Outcome.bind_eq_error.mp h with hd | ⟨d, _, h⟩
  · exact delimiterText?_eq_error hd
  rcases Outcome.bind_eq_error.mp h with hlocale | ⟨locale, _, h⟩
  · exact localeKey?_eq_error hlocale
  · cases h

theorem exists_naming_of_usable {es : List Entry}
    (h : settings.IsUsable (Entries.namedPaths es ≠ [])) :
    ∃ naming, settings.naming? (Groups.ofEntries es) = .ok naming := by
  unfold naming?
  split
  · exact ⟨_, rfl⟩
  · rename_i hnamed
    obtain ⟨d, hd⟩ := h.delimiter fun hnone =>
      hnamed (List.isEmpty_iff.mpr (Groups.named_ofEntries_eq_nil.mpr hnone))
    rw [hd, localeKey?_of_keyText? h.locale]
    exact ⟨_, rfl⟩

end Settings

/-! ## The survey -/

namespace Draft

variable {settings : Settings} {fields : List Field} {draft : Draft}

theorem of?_eq_ok (h : of? settings fields = .ok draft) :
    draft = ⟨settings.key, settings.locale, settings.name, settings.description,
      settings.resourceTypes,
      fields⟩ := by
  obtain ⟨locale, hlocale, h⟩ := Outcome.bind_eq_ok.mp h
  cases h
  rw [Settings.localeKey?_eq_ok hlocale]

theorem of?_eq_error {failure : Failure}
    (h : of? settings fields = .error failure) :
    ∃ cause, failure = .misuse cause := by
  rcases Outcome.bind_eq_error.mp h with hlocale | ⟨locale, _, h⟩
  · exact Settings.localeKey?_eq_error hlocale
  · cases h

end Draft

namespace Survey

variable {c : Corpus} {settings : Settings} {s : Store} {es : List Entry}
  {naming : Naming} {survey : Survey}

/-- The draft of a survey has a form when the configured values have one. -/
theorem Assembled.hasForm_draft (h : Assembled c settings s es naming survey) :
    survey.draft.toValue.hasForm = true
      ↔ settings.key.hasForm = true ∧ settings.name.hasForm = true
      ∧ settings.description.hasForm = true
      ∧ (∀ w ∈ settings.resourceTypes, (Value.ofWord w).hasForm = true)
      ∧ (Json.keyText? settings.locale).isSome = true := by
  have hlocale : ∀ f ∈ Field.ofGroups naming (Groups.ofEntries es),
      f.locale = settings.locale := by
    intro f hf
    obtain ⟨path, _, rfl⟩ :=
      List.mem_map.mp ((Field.ofGroups_perm naming es).mem_iff.mp hf)
    exact (Settings.naming?_eq_ok h.naming?).1
  rw [Draft.hasForm_toValue, Draft.of?_eq_ok h.draft]
  constructor
  · rintro ⟨hkey, hname, hdescription, hwords, hkeyText, _⟩
    exact ⟨hkey, hname, hdescription, hwords, hkeyText⟩
  · rintro ⟨hkey, hname, hdescription, hwords, hkeyText⟩
    refine ⟨hkey, hname, hdescription, hwords, hkeyText, fun f hf => ?_⟩
    rw [hlocale f hf]
    exact hkeyText

/-- A survey that has something to join has joined it with a text. -/
theorem Assembled.isText_of_hasNames
    (h : Assembled c settings s es naming survey) (hjoins : c.HasNames s) :
    settings.delimiter.isText = true := by
  obtain ⟨es', hes', hjoins⟩ := hjoins
  cases h.entries.symm.trans hes'
  exact (Settings.naming?_eq_ok h.naming?).2 fun hnone =>
    hjoins (Groups.named_ofEntries_eq_nil.mp hnone)

/-- A survey with misused settings has a draft that cannot be written. -/
theorem Assembled.hasForm_of_misused
    (h : Assembled c settings s es naming survey)
    (hmisused : settings.IsMisused (c.HasNames s)) :
    survey.draft.toValue.hasForm = false := by
  by_contra hform
  obtain ⟨hkey, hname, hdescription, hwords, hlocale⟩ :=
    h.hasForm_draft.mp (Bool.eq_true_of_not_eq_false hform)
  rcases hmisused with
    ⟨hjoins, hdelimiter⟩ | hlocale' | hkey' | hname' | hdescription'
      | ⟨w, hw, hword⟩
  · cases (h.isText_of_hasNames hjoins).symm.trans hdelimiter
  · cases hlocale.symm.trans hlocale'
  · cases hkey.symm.trans hkey'
  · cases hname.symm.trans hname'
  · cases hdescription.symm.trans hdescription'
  · cases (hwords w hw).symm.trans hword

theorem exists_entries_of_passes (hpass : ∀ file ∈ c.files, s.Passes file) :
    ∃ es, c.entries s = .ok es ∧ s.countAll c.files = .ok es.length := by
  obtain ⟨parts, hparts, htotal⟩ := Store.countAll_of_passes hpass
  exact ⟨parts.flatten, Outcome.bind_eq_ok.mpr ⟨parts, hparts, rfl⟩, htotal⟩

theorem exists_assembled_of_usable (hpass : ∀ file ∈ c.files, s.Passes file)
    (h : settings.IsUsable (c.HasNames s)) :
    ∃ es naming survey, run? c settings s = .ok survey
      ∧ Assembled c settings s es naming survey := by
  obtain ⟨es, hes, htotal⟩ := exists_entries_of_passes hpass
  have husable : settings.IsUsable (Entries.namedPaths es ≠ []) :=
    { h with delimiter := fun hjoins => h.delimiter ⟨es, hes, hjoins⟩ }
  obtain ⟨naming, hnaming⟩ := Settings.exists_naming_of_usable husable
  have hdraft : ∀ fields, ∃ draft,
      Draft.of? settings fields = .ok draft := fun fields =>
    ⟨_, Outcome.bind_eq_ok.mpr ⟨_,
      Settings.localeKey?_of_keyText? h.locale, rfl⟩⟩
  obtain ⟨draft, hdraft⟩ := hdraft (Field.ofGroups naming (Groups.ofEntries es))
  have hassembled : Assembled c settings s es naming
      ⟨Report.ofGroups c.files.length es.length es.length (Groups.ofEntries es),
        draft⟩ :=
    ⟨hes, htotal, hnaming, hdraft, rfl⟩
  refine ⟨es, naming, _, ?_, hassembled⟩
  exact Outcome.bind_eq_ok.mpr ⟨(), checkFiles_eq_ok.mpr hpass,
    assemble_eq_ok.mpr ⟨es, naming, hassembled⟩⟩

/-- Once all files have passed, a survey succeeds or a configured value is
misused. -/
theorem run?_of_passes (settings : Settings)
    (hpass : ∀ file ∈ c.files, s.Passes file) :
    (∃ survey, run? c settings s = .ok survey)
      ∨ ∃ cause, run? c settings s = .error (.misuse cause) := by
  obtain ⟨es, hes, htotal⟩ := exists_entries_of_passes hpass
  have htotal' := Store.checkTotal_eq_ok.mpr ⟨htotal, rfl⟩
  have hgroups : c.groups s = .ok (Groups.ofEntries es) :=
    Outcome.bind_eq_ok.mpr ⟨es, hes, rfl⟩
  cases hrun : run? c settings s with
  | ok survey => exact .inl ⟨survey, rfl⟩
  | error failure =>
    suffices hcause : ∃ cause, failure = .misuse cause by
      obtain ⟨cause, rfl⟩ := hcause
      exact .inr ⟨cause, rfl⟩
    rcases Outcome.bind_eq_error.mp hrun with hfiles | ⟨_, _, h⟩
    · cases (checkFiles_eq_ok.mpr hpass).symm.trans hfiles
    -- totals, groups, entries and coverage are there; the naming and the draft
    -- look at the settings
    rcases Outcome.bind_eq_error.mp h with h | ⟨total, _, h⟩
    · cases (hes ▸ htotal').symm.trans h
    rcases Outcome.bind_eq_error.mp h with h | ⟨groups, hgroups', h⟩
    · cases hgroups.symm.trans h
    cases hgroups.symm.trans hgroups'
    rcases Outcome.bind_eq_error.mp h with h | ⟨naming, _, h⟩
    · exact Settings.naming?_eq_error h
    rcases Outcome.bind_eq_error.mp h with h | ⟨es', hes', h⟩
    · cases hes.symm.trans h
    cases hes.symm.trans hes'
    rcases Outcome.bind_eq_error.mp h with h | ⟨_, _, h⟩
    · cases (Coverage.check_ofEntries naming es).symm.trans h
    rcases Outcome.bind_eq_error.mp h with h | ⟨draft, _, h⟩
    · exact Draft.of?_eq_error h
    · cases h

/-- A delimiter that is no text ends the survey where there is something to
join. -/
theorem run?_of_delimiter (hpass : ∀ file ∈ c.files, s.Passes file)
    (hjoins : c.HasNames s) (hdelimiter : settings.delimiter.isText = false) :
    ∃ cause, run? c settings s = .error (.misuse cause) := by
  refine (run?_of_passes settings hpass).resolve_left fun ⟨survey, hrun⟩ => ?_
  obtain ⟨_, _, hassemble⟩ := Outcome.bind_eq_ok.mp hrun
  obtain ⟨es, naming, hassembled⟩ := assemble_eq_ok.mp hassemble
  cases (hassembled.isText_of_hasNames hjoins).symm.trans hdelimiter

/-! ## Survey and outputs -/

/-- A survey whose outputs are written. -/
def delivery (c : Corpus) (settings : Settings) :
    Job (FilePath × FilePath) := do
  let survey ← job c settings
  survey.write settings

/-- What is delivered where nothing interrupts: the survey of the files as they
are, as far as it can be written. -/
theorem runOn_delivery (c : Corpus) (settings : Settings) {m : Machine}
    (hquiet : m.console.interruptAt = none) :
    ∃ mid, m.SameFiles mid ∧ (delivery c settings).runOn m
      = match run? c settings m.store with
        | .ok survey => (survey.write settings).runOn mid
        | .error failure => (.error failure, mid) := by
  have hanswer : ((job c settings).runOn m).1 = run? c settings m.store :=
    answer_of_quiet hquiet
  rcases hjob : (job c settings).runOn m with ⟨outcome, mid⟩
  refine ⟨mid, (keepsFiles_job c settings).sameFiles hjob, ?_⟩
  rw [hjob] at hanswer
  rw [delivery, Job.runOn_bind, hjob, ← hanswer]
  cases outcome with
  | ok survey => rfl
  | error failure => rfl

/-- Outputs that have a form fail for files only, where the console lays out the
closing notice. -/
theorem write_eq_error_of_whole {m left : Machine} {failure : Failure}
    (hquiet : m.console.interruptAt = none)
    (hlaysOut : m.console.LaysOut (survey.closing settings))
    (hreport : survey.report.IsWritable)
    (hdraft : survey.draft.toValue.hasForm = true)
    (h : (survey.write settings).runOn m = (.error failure, left)) :
    ∃ fault, failure = .file fault
      ∧ (fault.OnWayTo settings.reportFile
          ∨ fault.OnWayTo settings.draftFile) := by
  have hreport' :=
    (Json.broken_fileText _).mpr (Report.hasForm_toValue.mpr hreport)
  have hdraft' := (Json.broken_fileText _).mpr hdraft
  have hshown :=
    Console.failure?_eq_none.mpr ⟨Console.interruptsNext_of_none hquiet,
      hlaysOut⟩
  obtain ⟨placed, hbroken, _⟩ := exists_brokenOff h
  cases hbroken with
  | beforeReport fault hway hrefused => exact ⟨fault, rfl, .inl hway⟩
  | inReport cause place hplace hcause => cases hreport'.symm.trans hcause
  | beforeDraft fault place made hplace hmade hway hrefused =>
    exact ⟨fault, rfl, .inr hway⟩
  | inDraft cause place draftPlace hplace hdraftPlace hcause =>
    cases hdraft'.symm.trans hcause
  | beforeNotice failure place draftPlace hunshown hplace hdraftPlace =>
    cases hshown.symm.trans hunshown

/-- Outputs that have a form and room are both written. -/
theorem writeValue_of_whole {s : Store} (hreport : survey.report.IsWritable)
    (hdraft : survey.draft.toValue.hasForm = true)
    (hroom : settings.HasRoom s) :
    ∃ made left, writeValue settings.reportFile survey.report.toValue s
      = (.ok (), made)
      ∧ writeValue settings.draftFile survey.draft.toValue made
          = (.ok (), left) := by
  have hreport' :=
    (Json.broken_fileText _).mpr (Report.hasForm_toValue.mpr hreport)
  have hdraft' := (Json.broken_fileText _).mpr hdraft
  obtain ⟨made, hmade, haccepts⟩ := hroom (fileBytes survey.report.toValue)
  obtain ⟨left, hleft⟩ := haccepts.place (fileBytes survey.draft.toValue)
  exact ⟨made, left, writeValue_eq_ok.mpr ⟨hmade, hreport'⟩,
    writeValue_eq_ok.mpr ⟨hleft, hdraft'⟩⟩

/-- A closing notice that is not laid out fails the writing. -/
theorem write_of_not_laysOut {m : Machine}
    (hquiet : m.console.interruptAt = none)
    (hrefused : ¬m.console.LaysOut (survey.closing settings)) :
    (∀ paths left, (survey.write settings).runOn m ≠ (.ok paths, left))
      ∧ ∀ made left,
        writeValue settings.reportFile survey.report.toValue m.store
          = (.ok (), made) →
        writeValue settings.draftFile survey.draft.toValue made
          = (.ok (), left) →
        ∃ after, (survey.write settings).runOn m = (.error .brokenMarkup, after)
          ∧ after.store = left := by
  constructor
  · intro paths left h
    obtain ⟨_, _, _, hshown⟩ := write_eq_ok h
    exact hrefused (Console.failure?_eq_none.mp hshown).2
  · intro made left hreport hdraft
    have hwrite := write_of_writeValue hreport hdraft
    rw [Console.failure?_of_not_laysOut hrefused hquiet] at hwrite
    exact ⟨_, hwrite, rfl⟩

/-- A draft without form is not written. -/
theorem write_of_misused (settings : Settings) (m : Machine)
    (hdraft : survey.draft.toValue.hasForm = false) :
    (∀ paths left, (survey.write settings).runOn m ≠ (.ok paths, left))
      ∧ (survey.report.IsWritable → settings.HasRoom m.store →
        ∃ cause left, (survey.write settings).runOn m
          = (.error (.misuse cause), left)) := by
  obtain ⟨cause, hcause⟩ : ∃ cause, (Json.fileText survey.draft.toValue).broken
      = some cause := by
    rw [← Option.ne_none_iff_exists', ne_eq, Json.broken_fileText, hdraft]
    simp
  constructor
  · intro paths left h
    obtain ⟨made, _, hwritten, _⟩ := write_eq_ok h
    cases (writeValue_eq_ok.mp hwritten).2.symm.trans hcause
  · intro hreport hroom
    have hwhole :=
      (Json.broken_fileText _).mpr (Report.hasForm_toValue.mpr hreport)
    obtain ⟨made, hmade, haccepts⟩ := hroom (fileBytes survey.report.toValue)
    obtain ⟨final, hfinal⟩ := haccepts.place (fileBytes survey.draft.toValue)
    refine ⟨.ofLayout cause, m.withStore final, ?_⟩
    rw [write, Job.runOn_bind, Job.runOn_changing,
      writeValue_eq_ok.mpr ⟨hmade, hwhole⟩]
    simp only [Job.runOn_bind, Job.runOn_changing, Machine.withStore,
      writeValue_of_broken hfinal hcause]

/-- Where all files pass, the survey with usable settings can be written. -/
theorem exists_whole_of_usable (hpass : ∀ file ∈ c.files, s.Passes file)
    (h : settings.IsUsable (c.HasNames s)) :
    ∃ survey, run? c settings s = .ok survey
      ∧ survey.draft.toValue.hasForm = true := by
  obtain ⟨es, naming, survey, hrun, hassembled⟩ :=
    exists_assembled_of_usable hpass h
  exact ⟨survey, hrun, hassembled.hasForm_draft.mpr
    ⟨h.key, h.name, h.description, h.resourceTypes, h.locale⟩⟩

section Delivery

variable {m : Machine} (hquiet : m.console.interruptAt = none)
  (hpass : ∀ file ∈ c.files, m.store.Passes file)
  (hcounts : ∀ survey, run? c settings m.store = .ok survey →
    survey.report.IsWritable)

include hquiet hpass hcounts

/-- Usable settings fail for what is on the way to their outputs only. -/
theorem delivery_eq_error_of_usable
    (husable : settings.IsUsable (c.HasNames m.store))
    (hlaysOut : ∀ survey, run? c settings m.store = .ok survey →
      m.console.LaysOut (survey.closing settings))
    {failure : Failure}
    (h : ((delivery c settings).runOn m).1 = .error failure) :
    ∃ fault, failure = .file fault ∧ fault.problem ≠ .nullCharacter
      ∧ (fault.OnWayTo settings.reportFile
          ∨ fault.OnWayTo settings.draftFile) := by
  obtain ⟨mid, hsame, hdelivery⟩ := runOn_delivery c settings hquiet
  obtain ⟨survey, hrun, hdraft⟩ := exists_whole_of_usable hpass husable
  simp only [hrun] at hdelivery
  rw [hdelivery] at h
  obtain ⟨fault, rfl, hway⟩ :=
    write_eq_error_of_whole (hsame.interruptAt.trans hquiet)
      (hsame.laysOut_iff.mpr (hlaysOut survey hrun)) (hcounts survey hrun)
      hdraft (Prod.ext h rfl)
  refine ⟨fault, rfl, fun hnull => ?_, hway⟩
  -- no part of the two paths holds a null character
  rcases hway with hway | hway
  · obtain ⟨part, hpart, hchar⟩ := hway.null hnull
    exact husable.paths part (List.mem_append_left _ hpart) hchar
  · obtain ⟨part, hpart, hchar⟩ := hway.null hnull
    exact husable.paths part (List.mem_append_right _ hpart) hchar

/-- Misused settings fail as misused where the outputs have room. -/
theorem delivery_of_misused
    (hmisused : settings.IsMisused (c.HasNames m.store)) :
    (∀ paths, ((delivery c settings).runOn m).1 ≠ .ok paths)
      ∧ (settings.HasRoom m.store →
          ∃ cause, ((delivery c settings).runOn m).1
            = .error (.misuse cause)) := by
  obtain ⟨mid, hsame, hdelivery⟩ := runOn_delivery c settings hquiet
  rcases run?_of_passes settings hpass with ⟨survey, hrun⟩ | ⟨cause, hrun⟩ <;>
    simp only [hrun] at hdelivery <;>
    rw [hdelivery]
  · obtain ⟨_, _, hassemble⟩ := Outcome.bind_eq_ok.mp hrun
    obtain ⟨es, naming, hassembled⟩ := assemble_eq_ok.mp hassemble
    obtain ⟨hnever, hmisuse⟩ :=
      write_of_misused settings mid (hassembled.hasForm_of_misused hmisused)
    refine ⟨fun paths h => hnever paths _ (Prod.ext h rfl), fun hroom => ?_⟩
    obtain ⟨cause, left, h⟩ :=
      hmisuse (hcounts survey hrun) (hsame.store ▸ hroom)
    exact ⟨cause, congrArg Prod.fst h⟩
  · exact ⟨by simp, fun _ => ⟨cause, rfl⟩⟩

/-- Where the console refuses the closing notice, nothing else can be wrong with
usable settings whose outputs have room. -/
theorem delivery_of_not_laysOut
    (hrefused : ∀ survey, run? c settings m.store = .ok survey →
      ¬m.console.LaysOut (survey.closing settings)) :
    (∀ paths, ((delivery c settings).runOn m).1 ≠ .ok paths)
      ∧ (settings.IsUsable (c.HasNames m.store) → settings.HasRoom m.store →
          ∃ survey made left, run? c settings m.store = .ok survey
            ∧ writeValue settings.reportFile survey.report.toValue m.store
                = (.ok (), made)
            ∧ writeValue settings.draftFile survey.draft.toValue made
                = (.ok (), left.store)
            ∧ (delivery c settings).runOn m
                = (.error .brokenMarkup, left)) := by
  obtain ⟨mid, hsame, hdelivery⟩ := runOn_delivery c settings hquiet
  have hwrites (survey : Survey) (hrun : run? c settings m.store = .ok survey) :=
    write_of_not_laysOut (hsame.interruptAt.trans hquiet)
      (mt hsame.laysOut_iff.mp (hrefused survey hrun))
  constructor
  · intro paths h
    rcases run?_of_passes settings hpass with
      ⟨survey, hrun⟩ | ⟨cause, hrun⟩ <;>
      simp only [hrun] at hdelivery <;>
      rw [hdelivery] at h
    · exact (hwrites survey hrun).1 paths _ (Prod.ext h rfl)
    · cases h
  · intro husable hroom
    obtain ⟨survey, hrun, hdraft⟩ := exists_whole_of_usable hpass husable
    simp only [hrun] at hdelivery
    obtain ⟨made, left, hmade, hleft⟩ :=
      writeValue_of_whole (hcounts survey hrun) hdraft hroom
    obtain ⟨after, hwrite, rfl⟩ :=
      (hwrites survey hrun).2 made left (hsame.store ▸ hmade) hleft
    exact ⟨survey, made, after, hrun, hmade, hleft, hdelivery.trans hwrite⟩

end Delivery

/-- Where all files pass, usable settings can fail for the files on the way to
their output paths only, and never for what the paths say, on a console that
lays out the closing notice. Misused settings never succeed: they fail as
misused, wherever the outputs have room. Nor do settings succeed for which the
console refuses the closing notice: usable ones fail for that notice when both
outputs are written. -/
theorem usable_settings_meet_file_faults_only {m : Machine}
    (hquiet : m.console.interruptAt = none)
    (hpass : ∀ file ∈ c.files, m.store.Passes file)
    (hcounts : ∀ survey,
      run? c settings m.store = .ok survey → survey.report.IsWritable) :
    (settings.IsUsable (c.HasNames m.store) →
        (∀ survey, run? c settings m.store = .ok survey →
          m.console.LaysOut (survey.closing settings)) →
        ∀ failure, ((delivery c settings).runOn m).1 = .error failure →
          ∃ fault, failure = .file fault ∧ fault.problem ≠ .nullCharacter
            ∧ (fault.OnWayTo settings.reportFile
                ∨ fault.OnWayTo settings.draftFile))
      ∧ (settings.IsMisused (c.HasNames m.store) →
          (∀ paths, ((delivery c settings).runOn m).1 ≠ .ok paths)
          ∧ (settings.HasRoom m.store →
              ∃ cause, ((delivery c settings).runOn m).1
                = .error (.misuse cause)))
      ∧ ((∀ survey, run? c settings m.store = .ok survey →
            ¬m.console.LaysOut (survey.closing settings)) →
          (∀ paths, ((delivery c settings).runOn m).1 ≠ .ok paths)
          ∧ (settings.IsUsable (c.HasNames m.store) → settings.HasRoom m.store →
              ∃ survey made left, run? c settings m.store = .ok survey
                ∧ writeValue settings.reportFile survey.report.toValue m.store
                    = (.ok (), made)
                ∧ writeValue settings.draftFile survey.draft.toValue made
                    = (.ok (), left.store)
                ∧ (delivery c settings).runOn m
                    = (.error .brokenMarkup, left))) := by
  refine ⟨fun husable hlaysOut failure h => ?_, ?_, ?_⟩
  · exact delivery_eq_error_of_usable hquiet hpass hcounts husable hlaysOut h
  · exact delivery_of_misused hquiet hpass hcounts
  · exact delivery_of_not_laysOut hquiet hpass hcounts

end Survey

/-! ## A number as delimiter -/

/-- A directory with one document, which has a named leaf, and settings with a
number as delimiter. -/
def Store.numericDelimiter : Store :=
  ⟨[(["x"], .directory), (["x", "d.json"], .file "\x7b\"a\": 1\x7d".toUTF8),
    (["c.yaml"], .file "delimiter: 5\n".toUTF8)]⟩

theorem Store.writtenDocument_numericDelimiter :
    numericDelimiter.writtenDocument ⟨.working, ["x", "d.json"]⟩
      = .ok (.object [("a", .leaf (.integer 1))]) :=
  writtenDocument_of_text rfl (Json.skipMark_toUTF8 rfl rfl) rfl rfl

theorem Corpus.open?_numericDelimiter :
    open? .numericDelimiter (.ofString "x") = .ok .single :=
  open?_of_singleton rfl rfl rfl

theorem Corpus.passes_numericDelimiter :
    ∀ file ∈ Corpus.single.files, Store.numericDelimiter.Passes file := by
  obtain ⟨es, _, _, hpass⟩ :=
    Store.exists_holds_of_distinct Store.writtenDocument_numericDelimiter rfl
  simpa [Corpus.single] using hpass

theorem Corpus.entries_numericDelimiter :
    Corpus.single.entries .numericDelimiter
      = .ok [⟨["a"], .number (.ofInt 1), false⟩] := by
  obtain ⟨es, hes, hleaves, _⟩ :=
    Store.exists_holds_of_distinct Store.writtenDocument_numericDelimiter rfl
  cases hleaves
  have hparts : Corpus.single.files.mapM Store.numericDelimiter.entriesOfFile
      = .ok [[⟨["a"], .number (.ofInt 1), false⟩]] :=
    Outcome.mapM_eq_ok.mpr (congrArg (fun x => [x]) hes)
  exact entries_eq_ok hparts

theorem Corpus.hasNames_numericDelimiter :
    Corpus.single.HasNames .numericDelimiter :=
  ⟨_, entries_numericDelimiter, by decide⟩

/-- The settings file is accepted, and it changes the delimiter alone. -/
theorem Settings.load_numericDelimiter : ∃ settings,
    load .written .numericDelimiter (some "c.yaml") = .ok settings
      ∧ settings.delimiter.isText = false
      ∧ settings.reportFile = usual.reportFile
      ∧ settings.draftFile = usual.draftFile := by
  have hload : (load .written .numericDelimiter (some "c.yaml")).toOption.any
      (fun settings => !settings.delimiter.isText
        && settings.reportFile = usual.reportFile
        && settings.draftFile = usual.draftFile) = true := by
    decide +kernel
  cases hloaded : load .written .numericDelimiter (some "c.yaml") with
  | error failure => simp [hloaded, Except.toOption] at hload
  | ok settings =>
    rw [hloaded] at hload
    simp only [Except.toOption, Option.any_some, Bool.and_eq_true,
      Bool.not_eq_true', decide_eq_true_eq] at hload
    exact ⟨settings, rfl, hload.1.1, hload.1.2, hload.2⟩

theorem Settings.isUsable_usual (joins : Prop) : usual.IsUsable joins :=
  ⟨fun _ => ⟨_, rfl⟩, rfl, rfl, rfl, rfl, by decide, by decide⟩

theorem Survey.isWritable_numericDelimiter {settings : Settings}
    {survey : Survey}
    (h : run? .single settings .numericDelimiter = .ok survey) :
    survey.report.IsWritable := by
  obtain ⟨_, _, hassemble⟩ := Outcome.bind_eq_ok.mp h
  obtain ⟨es, naming, hassembled⟩ := assemble_eq_ok.mp hassemble
  cases hassembled.entries.symm.trans Corpus.entries_numericDelimiter
  have hcounts : ∀ count ∈ survey.report.counts, count.2 ≤ 1 := by
    rw [hassembled.report]
    decide
  intro count hcount
  have hdigits : ∀ k, k ≠ 0 → 1 < Nat.pow 10 k :=
    fun k hk => Nat.one_lt_pow hk (by decide)
  exact decide_eq_true
    (lt_of_le_of_lt (hcounts count hcount) (hdigits _ (by decide)))

/-- The settings are accepted, the document passes, the outputs have room, and
there is no outcome. -/
theorem Survey.accepted_delimiter_is_misused : ∃ settings corpus,
    Settings.load .written .numericDelimiter (some "c.yaml") = .ok settings
      ∧ Corpus.open? .numericDelimiter (.ofString "x") = .ok corpus
      ∧ (∀ file ∈ corpus.files, Store.numericDelimiter.Passes file)
      ∧ settings.HasRoom .numericDelimiter
      ∧ ∃ cause,
          ((delivery corpus settings).runOn
            ⟨.numericDelimiter, .fresh none, []⟩).1
        = .error (.misuse cause) := by
  obtain ⟨settings, hload, hdelimiter, hreport, hdraft⟩ :=
    Settings.load_numericDelimiter
  have hpass := Corpus.passes_numericDelimiter
  obtain ⟨cause, hrun⟩ :=
    run?_of_delimiter hpass Corpus.hasNames_numericDelimiter hdelimiter
  have hroom : settings.HasRoom .numericDelimiter := by
    intro bytes
    rw [hreport, hdraft]
    exact ⟨_, rfl, .empty, _, rfl⟩
  refine ⟨settings, .single, hload, Corpus.open?_numericDelimiter, hpass,
    hroom, cause, ?_⟩
  obtain ⟨mid, _, hdelivery⟩ := runOn_delivery .single settings
    (m := ⟨.numericDelimiter, .fresh none, []⟩) rfl
  rw [hdelivery]
  simp only [hrun]

/-- The usual settings, but for a report whose path reads as a closing tag. -/
def Settings.marked : Settings :=
  { usual with reportFile := .ofString "out[/x].json" }

/-- A console that lays out no tag which closes nothing, such as this one. -/
def Console.strict : Console :=
  ⟨[], 0, none, fun text => decide (['[', '/', 'x', ']'] <:+: text.toList)⟩

theorem Survey.not_laysOut_marked (survey : Survey) :
    ¬Console.strict.LaysOut (survey.closing .marked) := by
  let back :=
    ".json and brand-type.json (" ++ toString survey.draft.fields.length
      ++ " fields)[/bold green]"
  have hline : (survey.closing .marked).openTexts
      = ["[bold green]Wrote out" ++ "[/x]" ++ back] := by
    simp only [closing, Notice.openTexts, Notice.line?, Option.toList_some]
    rfl
  intro h
  have hlaidOut := h _ (hline ▸ List.mem_singleton_self _)
  rw [Console.strict, decide_eq_false_iff_not] at hlaidOut
  refine hlaidOut ⟨"[bold green]Wrote out".toList, back.toList, ?_⟩
  simp only [back, String.toList_append]
  rfl

/-- With the usual settings the document is surveyed up to its outputs, and with
the number it never is; with the marked path both outputs are written, and it
fails. -/
theorem Survey.delivery_of_numericDelimiter :
    (∀ file ∈ Corpus.single.files, Store.numericDelimiter.Passes file)
      ∧ (∀ settings survey,
          run? .single settings .numericDelimiter = .ok survey →
          survey.report.IsWritable)
      ∧ (∀ failure,
          ((delivery .single .usual).runOn
            ⟨.numericDelimiter, .fresh none, []⟩).1 = .error failure →
          ∃ fault, failure = .file fault ∧ fault.problem ≠ .nullCharacter
            ∧ (fault.OnWayTo Settings.usual.reportFile
                ∨ fault.OnWayTo Settings.usual.draftFile))
      ∧ (∃ settings, Settings.load .written .numericDelimiter (some "c.yaml")
          = .ok settings
          ∧ settings.IsMisused (Corpus.single.HasNames .numericDelimiter)
          ∧ ∀ paths,
            ((delivery .single settings).runOn
              ⟨.numericDelimiter, .fresh none, []⟩).1 ≠ .ok paths)
      ∧ ∃ survey made left, run? .single .marked .numericDelimiter = .ok survey
          ∧ writeValue Settings.marked.reportFile survey.report.toValue
              .numericDelimiter
            = (.ok (), made)
          ∧ writeValue Settings.marked.draftFile survey.draft.toValue made
              = (.ok (), left.store)
          ∧ (delivery .single .marked).runOn ⟨.numericDelimiter, .strict, []⟩
            = (.error .brokenMarkup, left) := by
  have hpass := Corpus.passes_numericDelimiter
  have husable :=
    Settings.isUsable_usual (Corpus.single.HasNames .numericDelimiter)
  obtain ⟨settings, hload, hdelimiter, _⟩ := Settings.load_numericDelimiter
  have hmisused : settings.IsMisused
      (Corpus.single.HasNames .numericDelimiter) :=
    .inl ⟨Corpus.hasNames_numericDelimiter, hdelimiter⟩
  have hmarked : Settings.marked.IsUsable
      (Corpus.single.HasNames .numericDelimiter) :=
    { husable with paths := by decide }
  have hroom : Settings.marked.HasRoom .numericDelimiter :=
    fun _ => ⟨_, rfl, .empty, _, rfl⟩
  have hcounts : ∀ (settings : Settings) survey,
      run? .single settings .numericDelimiter = .ok survey →
      survey.report.IsWritable := fun _ _ h => isWritable_numericDelimiter h
  refine ⟨hpass, hcounts, ?_, ⟨settings, hload, hmisused, ?_⟩, ?_⟩
  · exact (usable_settings_meet_file_faults_only
      (m := ⟨.numericDelimiter, .fresh none, []⟩) rfl hpass (hcounts .usual)).1
      husable fun _ _ _ _ => rfl
  · exact ((usable_settings_meet_file_faults_only
      (m := ⟨.numericDelimiter, .fresh none, []⟩) rfl hpass
      (hcounts settings)).2.1 hmisused).1
  · exact ((usable_settings_meet_file_faults_only
      (m := ⟨.numericDelimiter, .strict, []⟩) rfl hpass (hcounts .marked)).2.2
      fun survey _ => not_laysOut_marked survey).2 hmarked hroom

end LeafSurvey
