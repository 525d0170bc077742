import LeafSurvey.Command.Basic
import LeafSurvey.Proofs.Completion
import LeafSurvey.Proofs.Drafting
import LeafSurvey.Proofs.Writing

/-!
# What commands touch

Only `run` writes, and it writes after everything else. What it is to write is
`prepared` from the files as they are before: settings, corpus and survey. A run
that cannot be prepared leaves all files alone; a run that ends with code 0 has
put report and draft in their places, with the directories above them.

* `keepsFiles_answer`: every other request leaves all files as they are;
* `prepared_of_findings`, `answer_findings`: the work of a run up to its outputs
  finds what is prepared;
* `runJob_of_error`, `runJob_eq_ok`, `runJob_of_prepared`: how all of its work
  goes, by what is prepared;
* `run_changes_outputs_only`: both for every command line, with the codes that
  it ends with.
-/

namespace LeafSurvey

/-! ## Failures that are reported -/

namespace Failure

/-- A finding of the survey itself. -/
inductive IsFinding : Failure → Prop
  | settings (fault : SettingsFault) : IsFinding (settings fault)
  | document (path : FilePath) (fault : Json.Fault) :
      IsFinding (document path fault)
  | leafMismatch (fileName : String) (entries tokens : Nat) :
      IsFinding (leafMismatch fileName entries tokens)
  | totalMismatch (entries tokens : Nat) :
      IsFinding (totalMismatch entries tokens)
  | fieldMismatch (fields groups : Nat) :
      IsFinding (fieldMismatch fields groups)
  | uncovered (path : Path) (fieldName : String) :
      IsFinding (uncovered path fieldName)

/-- A file or a directory is not there, or something else is in its place. -/
inductive IsAbsence : Failure → Prop
  | noSettingsFile (path : FilePath) : IsAbsence (noSettingsFile path)
  | noDirectory (path : FilePath) : IsAbsence (noDirectory path)
  | notADirectory (path : FilePath) : IsAbsence (notADirectory path)
  | missing (path : FilePath) : IsAbsence (file ⟨.missing, path⟩)
  | notDirectory (path : FilePath) : IsAbsence (file ⟨.notDirectory, path⟩)

/-- Findings and absences are what a command reports. -/
theorem isReported_iff {f : Failure} :
    f.isReported = true ↔ f.IsFinding ∨ f.IsAbsence := by
  constructor
  · intro h
    cases f with
    | settings fault => exact .inl (.settings fault)
    | document path fault => exact .inl (.document path fault)
    | leafMismatch fileName entries tokens =>
      exact .inl (.leafMismatch fileName entries tokens)
    | totalMismatch entries tokens => exact .inl (.totalMismatch entries tokens)
    | fieldMismatch fields groups => exact .inl (.fieldMismatch fields groups)
    | uncovered path fieldName => exact .inl (.uncovered path fieldName)
    | noSettingsFile path => exact .inr (.noSettingsFile path)
    | noDirectory path => exact .inr (.noDirectory path)
    | notADirectory path => exact .inr (.notADirectory path)
    | file fault =>
      obtain ⟨problem, path⟩ := fault
      cases problem with
      | missing => exact .inr (.missing path)
      | notDirectory => exact .inr (.notDirectory path)
      | _ => simp [isReported] at h
    | _ => simp [isReported] at h
  · rintro (h | h) <;> cases h <;> simp [isReported]

end Failure

/-! ## The survey -/

namespace Survey

theorem keepsFiles_job (c : Corpus) (settings : Settings) :
    (job c settings).KeepsFiles :=
  .bind (.reading _) fun _ => .bind (.notify _) fun _ => .reading _

theorem keepsFiles_showSchema (c : Corpus) (delimiter : Value) :
    (showSchema c delimiter).KeepsFiles :=
  .bind (.notify _) fun _ => .bind (.reading _) fun _ => .notify _

theorem keepsFiles_showCounts (c : Corpus) : (showCounts c).KeepsFiles :=
  .bind (.reading _) fun _ => .notify _

/-- A survey that ends is the survey of the files as they are before it. -/
theorem run?_of_job {c : Corpus} {settings : Settings} {m : Machine}
    {survey : Survey} (h : ((job c settings).runOn m).1 = .ok survey) :
    run? c settings m.store = .ok survey :=
  Outcome.bind_eq_ok.mpr ⟨(), checkFiles_of_job h,
    assemble_eq_ok.mpr (assembled_of_job h)⟩

/-- Where nothing interrupts it, a survey ends as on files that do not
change. -/
theorem answer_of_quiet {c : Corpus} {settings : Settings} {m : Machine}
    (hquiet : m.console.interruptAt = none) :
    ((job c settings).runOn m).1 = run? c settings m.store := by
  rw [answer_runOn_job, Console.interruptsNext_of_none hquiet]
  rfl

/-- The notice that closes the writing of a survey. -/
def closing (survey : Survey) (settings : Settings) : Notice :=
  .wrote settings.reportFile settings.draftFile survey.draft.fields.length

/-- Both outputs are written, one after the other, and the notice is shown, or
the writing fails. -/
theorem write_eq_ok {survey : Survey} {settings : Settings} {m left : Machine}
    {paths : FilePath × FilePath}
    (h : (survey.write settings).runOn m = (.ok paths, left)) :
    ∃ made, writeValue settings.reportFile survey.report.toValue m.store
      = (.ok (), made)
      ∧ writeValue settings.draftFile survey.draft.toValue made
          = (.ok (), left.store)
      ∧ m.console.failure? (survey.closing settings) = none := by
  obtain ⟨_, first, hreport, h⟩ := Job.runOn_bind_eq_ok.mp h
  obtain ⟨_, second, hdraft, h⟩ := Job.runOn_bind_eq_ok.mp h
  obtain ⟨_, third, hnotice, h⟩ := Job.runOn_bind_eq_ok.mp h
  cases h
  obtain ⟨hreport, hfirst⟩ := Job.runOn_changing_eq.mp hreport
  obtain ⟨hdraft, hsecond⟩ := Job.runOn_changing_eq.mp hdraft
  rw [((Job.KeepsFiles.notify _).sameFiles hnotice).store]
  refine ⟨first.store, hreport, hdraft, ?_⟩
  rw [Job.runOn_notify, hsecond, hfirst] at hnotice
  split at hnotice
  · cases hnotice
  · assumption

/-- Writing fails at the report, at the draft, or after both at the notice. -/
theorem write_eq_error {survey : Survey} {settings : Settings}
    {m left : Machine} {failure : Failure}
    (h : (survey.write settings).runOn m = (.error failure, left)) :
    writeValue settings.reportFile survey.report.toValue m.store
      = (.error failure, left.store)
      ∨ ∃ made, writeValue settings.reportFile survey.report.toValue m.store
          = (.ok (), made)
        ∧ (writeValue settings.draftFile survey.draft.toValue made
            = (.error failure, left.store)
          ∨ writeValue settings.draftFile survey.draft.toValue made
              = (.ok (), left.store)
            ∧ m.console.failure? (survey.closing settings) = some failure) := by
  rcases Job.runOn_bind_eq_error.mp h with h | ⟨_, first, hreport, h⟩
  · exact .inl (Job.runOn_changing_eq.mp h).1
  obtain ⟨hreport, hfirst⟩ := Job.runOn_changing_eq.mp hreport
  refine .inr ⟨first.store, hreport, ?_⟩
  rcases Job.runOn_bind_eq_error.mp h with h | ⟨_, second, hdraft, h⟩
  · exact .inl (Job.runOn_changing_eq.mp h).1
  obtain ⟨hdraft, hsecond⟩ := Job.runOn_changing_eq.mp hdraft
  rcases Job.runOn_bind_eq_error.mp h with h | ⟨_, third, _, h⟩
  · have hsame := (Job.KeepsFiles.notify _).sameFiles h
    rw [Job.runOn_notify, hsecond, hfirst] at h
    split at h
    · rename_i hfailure
      cases h
      exact .inr ⟨hdraft, hfailure⟩
    · cases h
  · cases h

/-- Once both outputs are written, only the notice is left, and it is shown or
fails. -/
theorem write_of_writeValue {survey : Survey} {settings : Settings}
    {m : Machine} {made left : Store}
    (hreport : writeValue settings.reportFile survey.report.toValue m.store
      = (.ok (), made))
    (hdraft : writeValue settings.draftFile survey.draft.toValue made
      = (.ok (), left)) :
    (survey.write settings).runOn m
      = match m.console.failure? (survey.closing settings) with
        | some failure =>
          (.error failure, (m.withStore left).withConsole m.console.attempted)
        | none => (.ok (settings.reportFile, settings.draftFile),
          (m.withStore left).withConsole
            (m.console.attempted.showing (survey.closing settings))) := by
  have hfirst :
      (Job.changing
      (writeValue settings.reportFile survey.report.toValue)).runOn m
      = (.ok (), m.withStore made) :=
    Job.runOn_changing_eq.mpr ⟨hreport, rfl⟩
  have hsecond :
      (Job.changing (writeValue settings.draftFile survey.draft.toValue)).runOn
      (m.withStore made) = (.ok (), m.withStore left) :=
    Job.runOn_changing_eq.mpr ⟨hdraft, rfl⟩
  have hnotice := Job.runOn_notify (survey.closing settings) (m.withStore left)
  simp only [closing] at hnotice ⊢
  simp only [write, Job.runOn_bind, hfirst, hsecond, hnotice]
  show _ = match (m.withStore left).console.failure? _ with
    | some failure => _
    | none => _
  cases (m.withStore left).console.failure? _ with
  | some failure => rfl
  | none => rfl

end Survey

/-! ## The work of a run -/

namespace Command

/-- What a run finds before it writes. -/
structure Prepared where
  settings : Settings
  corpus : Corpus
  survey : Survey

variable (order : SetOrder) (directory : String)
  (config report draft key : Option Given)

/-- The settings are read, the directory is opened and its corpus is surveyed,
all on files that do not change. -/
def prepared (s : Store) : Except Failure Prepared := do
  let settings ← runSettings order config report draft key s
  let corpus ← Corpus.open? s (.ofString directory)
  let survey ← Survey.run? corpus settings s
  return ⟨settings, corpus, survey⟩

/-- The work of a run up to its outputs. -/
def findings : Job Prepared := do
  let settings ← Job.reading (runSettings order config report draft key)
  let corpus ← Job.reading fun s => Corpus.open? s (.ofString directory)
  let survey ← Survey.job corpus settings
  return ⟨settings, corpus, survey⟩

variable {order directory config report draft key}

theorem prepared_eq_ok {s : Store} {p : Prepared} :
    prepared order directory config report draft key s = .ok p
      ↔ runSettings order config report draft key s = .ok p.settings
        ∧ Corpus.open? s (.ofString directory) = .ok p.corpus
        ∧ Survey.run? p.corpus p.settings s = .ok p.survey := by
  constructor
  · intro h
    obtain ⟨settings, hsettings, h⟩ := Outcome.bind_eq_ok.mp h
    obtain ⟨corpus, hopen, h⟩ := Outcome.bind_eq_ok.mp h
    obtain ⟨survey, hsurvey, h⟩ := Outcome.bind_eq_ok.mp h
    cases h
    exact ⟨hsettings, hopen, hsurvey⟩
  · rintro ⟨hsettings, hopen, hsurvey⟩
    exact Outcome.bind_eq_ok.mpr ⟨_, hsettings,
      Outcome.bind_eq_ok.mpr ⟨_, hopen,
        Outcome.bind_eq_ok.mpr ⟨_, hsurvey, rfl⟩⟩⟩

theorem runJob_eq_findings : runJob order directory config report draft key
    = findings order directory config report draft key >>= fun p =>
        discard (p.survey.write p.settings) := by
  simp [runJob, findings]

theorem keepsFiles_findings :
    (findings order directory config report draft key).KeepsFiles :=
  .bind (.reading _) fun _ => .bind (.reading _) fun _ =>
    .bind (Survey.keepsFiles_job _ _) fun _ => .pure _

/-- What is found is what was prepared. -/
theorem prepared_of_findings {m : Machine} {p : Prepared}
    (h : ((findings order directory config report draft key).runOn m).1
      = .ok p) :
    prepared order directory config report draft key m.store = .ok p := by
  obtain ⟨settings, _, hreads, h⟩ := Job.runOn_bind_eq_ok.mp (Prod.ext h rfl)
  obtain ⟨hsettings, rfl⟩ := Job.runOn_reading_eq_ok.mp hreads
  obtain ⟨corpus, _, hlists, h⟩ := Job.runOn_bind_eq_ok.mp h
  obtain ⟨hopen, rfl⟩ := Job.runOn_reading_eq_ok.mp hlists
  obtain ⟨survey, mid, hsurvey, h⟩ := Job.runOn_bind_eq_ok.mp h
  cases h
  have hrun := Survey.run?_of_job (congrArg Prod.fst hsurvey)
  exact prepared_eq_ok.mpr ⟨hsettings, hopen, hrun⟩

/-- Where nothing interrupts, what is prepared is found, and the failure is the
same. -/
theorem answer_findings {m : Machine} (hquiet : m.console.interruptAt = none) :
    ((findings order directory config report draft key).runOn m).1
      = prepared order directory config report draft key m.store := by
  rw [findings, prepared, Job.runOn_bind, Job.runOn_reading]
  cases runSettings order config report draft key m.store with
  | error failure => rfl
  | ok settings =>
    simp only [Job.runOn_bind, Job.runOn_reading]
    cases Corpus.open? m.store (.ofString directory) with
    | error failure => rfl
    | ok corpus =>
      have hanswer : ((Survey.job corpus settings).runOn m).1
          = Survey.run? corpus settings m.store :=
        Survey.answer_of_quiet hquiet
      rcases hjob : (Survey.job corpus settings).runOn m with ⟨outcome, mid⟩
      rw [hjob] at hanswer
      show _ = Except.bind (Survey.run? corpus settings m.store) fun survey =>
        .ok (⟨settings, corpus, survey⟩ : Prepared)
      simp only [hjob]
      rw [← hanswer]
      cases outcome with
      | ok survey => rfl
      | error failure => rfl

theorem runJob_of_error {m : Machine} {failure : Failure}
    (h : prepared order directory config report draft key m.store
      = .error failure) :
    ∃ cause left, (runJob order directory config report draft key).runOn m
      = (.error cause, left)
      ∧ m.SameFiles left
      ∧ (m.console.interruptAt = none → cause = failure) := by
  rw [runJob_eq_findings, Job.runOn_bind]
  rcases hfound : (findings order directory config report draft key).runOn
    m with ⟨cause | p, left⟩
  · refine ⟨cause, left, rfl, keepsFiles_findings.sameFiles hfound,
      fun hquiet => ?_⟩
    exact Except.error.inj
      ((congrArg Prod.fst hfound).symm.trans ((answer_findings hquiet).trans h))
  · cases (prepared_of_findings (congrArg Prod.fst hfound)).symm.trans h

theorem runJob_eq_ok {m left : Machine}
    (h : (runJob order directory config report draft key).runOn m
      = (.ok (), left)) :
    ∃ p made, prepared order directory config report draft key m.store = .ok p
      ∧ Survey.writeValue p.settings.reportFile p.survey.report.toValue m.store
          = (.ok (), made)
      ∧ Survey.writeValue p.settings.draftFile p.survey.draft.toValue made
          = (.ok (), left.store)
      ∧ m.console.LaysOut (p.survey.closing p.settings) := by
  rw [runJob_eq_findings] at h
  obtain ⟨p, mid, hfound, hwrites⟩ := Job.runOn_bind_eq_ok.mp h
  obtain ⟨paths, hwrite⟩ := Job.runOn_discard_eq_ok.mp hwrites
  obtain ⟨made, hreport, hdraft, hshown⟩ := Survey.write_eq_ok hwrite
  have hsame := keepsFiles_findings.sameFiles hfound
  rw [hsame.store] at hreport
  exact ⟨p, made, prepared_of_findings (congrArg Prod.fst hfound), hreport,
    hdraft, hsame.laysOut_iff.mp (Console.failure?_eq_none.mp hshown).2⟩

theorem runJob_of_prepared {m : Machine} {p : Prepared} {made left : Store}
    (hquiet : m.console.interruptAt = none)
    (hlaysOut : m.console.LaysOut (p.survey.closing p.settings))
    (hprepared : prepared order directory config report draft key m.store
      = .ok p)
    (hreport : Survey.writeValue p.settings.reportFile p.survey.report.toValue
      m.store = (.ok (), made))
    (hdraft : Survey.writeValue p.settings.draftFile p.survey.draft.toValue made
      = (.ok (), left)) :
    ∃ after, (runJob order directory config report draft key).runOn m
      = (.ok (), after)
      ∧ after.store = left := by
  have hanswer := (answer_findings hquiet).trans hprepared
  rcases hfound : (findings order directory config report draft key).runOn
    m with ⟨outcome, mid⟩
  rw [hfound] at hanswer
  cases hanswer
  have hsame := keepsFiles_findings.sameFiles hfound
  have hshown : mid.console.failure? (p.survey.closing p.settings) = none :=
    Console.failure?_eq_none.mpr
      ⟨Console.interruptsNext_of_none (hsame.interruptAt.trans hquiet),
       hsame.laysOut_iff.mpr hlaysOut⟩
  rw [← hsame.store] at hreport
  have hwrite := Survey.write_of_writeValue hreport hdraft
  rw [hshown] at hwrite
  refine ⟨(mid.withStore left).withConsole
    (mid.console.attempted.showing (p.survey.closing p.settings)), ?_, rfl⟩
  rw [runJob_eq_findings]
  exact Job.runOn_bind_eq_ok.mpr ⟨p, mid, hfound,
    Job.runOn_discard_eq_ok.mpr ⟨_, hwrite⟩⟩

/-! ## Endings -/

/-- Work that is supervised ends with code 0, or is settled. -/
theorem runOn_supervised (work : Job Unit) (m : Machine) :
    (supervised work).runOn m
      = match work.runOn m with
        | (.ok (), left) => (.ok (.plain 0), left)
        | (.error failure, left) => (settle failure).runOn left := by
  rw [supervised, Job.runOn_tryCatch, Job.runOn_bind]
  rcases work.runOn m with ⟨_ | _, left⟩ <;> rfl

theorem keepsFiles_settle (failure : Failure) :
    (settle failure).KeepsFiles := by
  unfold settle
  split
  · exact .bind (.notify _) fun _ => .pure _
  split
  · exact .bind (.notify _) fun _ => .pure _
  · exact .throw failure

theorem code_settle {failure : Failure} {m left : Machine} {ending : Ending}
    (h : (settle failure).runOn m = (.ok ending, left)) : ending.code ≠ 0 := by
  unfold settle at h
  split at h
  · obtain ⟨_, _, _, h⟩ := Job.runOn_bind_eq_ok.mp h
    cases h
    simp [Ending.plain]
  split at h
  · obtain ⟨_, _, _, h⟩ := Job.runOn_bind_eq_ok.mp h
    cases h
    simp [Ending.plain]
  · cases h

/-- A reported failure ends with code 1, where the console lets the report
through. -/
theorem runOn_settle_of_isReported {failure : Failure} {m : Machine}
    (h : failure.isReported = true) (hquiet : m.console.interruptAt = none) :
    ((settle failure).runOn m).1 = .ok (.plain 1) := by
  have hother : failure ≠ .interrupted := by
    rintro rfl
    simp [Failure.isReported] at h
  rw [settle, if_neg hother, if_pos h, Job.runOn_bind,
    Job.runOn_notify_of_laysOut (m.console.laysOut_of_closed rfl),
    Console.interruptsNext_of_none hquiet]
  rfl

theorem keepsFiles_supervised {work : Job Unit} (h : work.KeepsFiles) :
    (supervised work).KeepsFiles := by
  intro m
  have hwork := h m
  rw [runOn_supervised]
  rcases hrun : work.runOn m with ⟨failure | _, left⟩ <;> rw [hrun] at hwork
  · exact hwork.trans (keepsFiles_settle failure left)
  · exact hwork

/-- All requests but `run` look at files at most. -/
theorem keepsFiles_answer {request : Request}
    (h : ∀ directory config report draft key,
      request ≠ .run directory config report draft key) :
    (answer order request).KeepsFiles := by
  cases request with
  | version => exact .bind (.notify _) fun _ => .pure _
  | help program => exact .pure _
  | complaint program message => exact .pure _
  | run directory config report draft key =>
    exact absurd rfl (h directory config report draft key)
  | schema directory config =>
    exact keepsFiles_supervised
      (.bind (.reading _) fun _ =>
        .bind (.reading _) fun _ => Survey.keepsFiles_showSchema _ _)
  | count directory =>
    exact keepsFiles_supervised
      (.bind (.reading _) fun _ => Survey.keepsFiles_showCounts _)

/-- The outputs of a run are in two places, and of all else there are at most
new directories above them. -/
structure Delivered (s : Store) (p : Prepared)
    (reportPlace draftPlace : Location) (left : Store) :
    Prop where
  report : left.lookup reportPlace
    = some (.file (Survey.fileBytes p.survey.report.toValue))
  draft : left.lookup draftPlace
    = some (.file (Survey.fileBytes p.survey.draft.toValue))
  reportIsWhole : (Json.fileText p.survey.report.toValue).broken = none
  draftIsWhole : (Json.fileText p.survey.draft.toValue).broken = none
  others : ∀ q, q ≠ reportPlace → q ≠ draftPlace → left.lookup q = s.lookup q
    ∨ s.lookup q = none ∧ left.lookup q = some .directory
      ∧ (left.Leads p.settings.reportFile.parent q
          ∨ left.Leads p.settings.draftFile.parent q)

/-- Two outputs that have been written are delivered, unless the second has
replaced the first. -/
theorem delivered_of_writeValue {s made left : Store} {p : Prepared}
    (hreport : Survey.writeValue p.settings.reportFile p.survey.report.toValue s
      = (.ok (), made))
    (hdraft : Survey.writeValue p.settings.draftFile p.survey.draft.toValue made
      = (.ok (), left)) :
    ∃ reportPlace draftPlace, left.resolve p.settings.reportFile
      = .ok reportPlace
      ∧ left.resolve p.settings.draftFile = .ok draftPlace
      ∧ (reportPlace ≠ draftPlace →
          Delivered s p reportPlace draftPlace left) := by
  obtain ⟨hplaced, hwhole⟩ := Survey.writeValue_eq_ok.mp hreport
  obtain ⟨hplaced', hwhole'⟩ := Survey.writeValue_eq_ok.mp hdraft
  obtain ⟨reportPlace, hfirst⟩ := Store.receives_place hplaced
  obtain ⟨draftPlace, hsecond⟩ := Store.receives_place hplaced'
  obtain ⟨hresolve, hlookup, hothers⟩ := hfirst.followed hsecond
  exact ⟨reportPlace, draftPlace, hresolve, hsecond.resolve, fun hne =>
    ⟨hlookup hne, hsecond.lookup, hwhole, hwhole', hothers⟩⟩

/-- What a command line may touch, and what its codes mean. Every line but a
`run` leaves all files as they are. A run that cannot be prepared, for its
settings, its directory or any check, leaves them as they are too and does not
end with code 0; it ends with code 1 for every finding of the survey and for
everything that is not there. A run that ends with code 0 has written the report
and the draft of the files as they were, each in its place, and has changed
nothing else but for missing directories above the two. -/
theorem run_changes_outputs_only (order : SetOrder) (args : List String)
    (m : Machine) :
    ((∀ directory config report draft key,
        requestOfLine args ≠ .run directory config report draft key) →
      ((run order args).runOn m).2.store = m.store)
    ∧ ∀ directory config report draft key,
      requestOfLine args = .run directory config report draft key →
      (∀ failure, prepared order directory config report draft key m.store
        = .error failure →
        ((run order args).runOn m).2.store = m.store
        ∧ (∀ ending, ((run order args).runOn m).1 = .ok ending →
            ending.code ≠ 0)
        ∧ (m.console.interruptAt = none → failure.IsFinding
            ∨ failure.IsAbsence →
            ((run order args).runOn m).1 = .ok (.plain 1)))
      ∧ ∀ ending, ((run order args).runOn m).1 = .ok ending → ending.code = 0 →
        ∃ p reportPlace draftPlace,
          prepared order directory config report draft key m.store = .ok p
          ∧ ((run order args).runOn m).2.store.resolve p.settings.reportFile
              = .ok reportPlace
          ∧ ((run order args).runOn m).2.store.resolve p.settings.draftFile
              = .ok draftPlace
          ∧ (reportPlace ≠ draftPlace →
              Delivered m.store p reportPlace draftPlace
                ((run order args).runOn m).2.store) := by
  refine ⟨fun hother => (keepsFiles_answer hother m).store, ?_⟩
  intro directory config report draft key hrequest
  have hrun : (run order args).runOn m
      = (supervised (runJob order directory config report draft key)).runOn
          m := by
    rw [run, hrequest, answer]
  rw [hrun, runOn_supervised]
  constructor
  · intro failure hfailure
    obtain ⟨cause, left, hjob, hsame, hquiet⟩ := runJob_of_error hfailure
    simp only [hjob]
    refine ⟨((keepsFiles_settle cause left).store).trans hsame.store,
      fun ending hending => ?_, fun hnone hreported => ?_⟩
    · exact code_settle (Prod.ext hending rfl)
    · rw [hquiet hnone]
      exact runOn_settle_of_isReported (Failure.isReported_iff.mpr hreported)
        (hsame.interruptAt.trans hnone)
  · intro ending hending hcode
    rcases hjob : (runJob order directory config report draft key).runOn m with
      ⟨cause | _, left⟩ <;>
      simp only [hjob] at hending ⊢
    · exact absurd hcode (code_settle (Prod.ext hending rfl))
    · obtain ⟨p, made, hprepared, hreport, hdraft, _⟩ := runJob_eq_ok hjob
      obtain ⟨reportPlace, draftPlace, hdelivered⟩ :=
        delivered_of_writeValue hreport hdraft
      exact ⟨p, reportPlace, draftPlace, hprepared, hdelivered⟩

end Command

/-! ## A run -/

/-- A directory with one document, which is a number. -/
def Store.single : Store :=
  ⟨[(["x"], .directory), (["x", "d.json"], .file "1".toUTF8)]⟩

def Corpus.single : Corpus :=
  ⟨⟨.working, ["x"]⟩, [⟨.working, ["x", "d.json"]⟩]⟩

theorem Corpus.open?_single : open? .single (.ofString "x") = .ok single :=
  open?_of_singleton rfl rfl rfl

theorem Survey.run?_single : run? .single .usual .single = .ok {
    report := ⟨1, 1, 1, 0, 0, 0⟩
    draft := ⟨.text "Brand", .text "en", .text "Brand",
      .text "Fields definitions for brand (top-level category)",
        [.chars "category"], []⟩ } := by
  have hread : Store.single.read ⟨.working, ["x", "d.json"]⟩
      = .ok "1".toUTF8 :=
    rfl
  have hwritten :=
    Store.writtenDocument_of_text hread (Json.skipMark_toUTF8 rfl rfl) rfl
      (show Json.ofChars? "1".toList = some (.leaf (.integer 1)) from rfl)
  obtain ⟨es, hes, hleaves, hpass⟩ :=
    Store.exists_holds_of_distinct hwritten rfl
  cases hleaves
  have hfiles : ∀ file ∈ Corpus.single.files, Store.single.Passes file := by
    simpa [Corpus.single] using hpass
  have hparts : Corpus.single.files.mapM Store.single.entriesOfFile
      = .ok [[⟨[], .number (.ofInt 1), false⟩]] :=
    Outcome.mapM_eq_ok.mpr (congrArg (fun x => [x]) hes)
  have hentries : Corpus.single.entries .single
      = .ok [⟨[], .number (.ofInt 1), false⟩] :=
    Corpus.entries_eq_ok hparts
  have htexts : Settings.usual.HasTexts := ⟨rfl, rfl⟩
  obtain ⟨survey, hsurvey⟩ := exists_assembled htexts hfiles
  obtain ⟨es, naming, hassembled⟩ := assemble_eq_ok.mp hsurvey
  cases hassembled.entries.symm.trans hentries
  -- the one entry has no name, so there are no fields
  have hnone : Field.ofGroups naming
      (Groups.ofEntries [⟨[], .number (.ofInt 1), false⟩]) = [] :=
    List.Perm.eq_nil (Field.ofGroups_perm naming _)
  have hreport := hassembled.report
  have hdraft := hassembled.draft
  rw [hnone] at hdraft
  obtain ⟨report, draft⟩ := survey
  cases hreport
  cases hdraft
  exact Outcome.bind_eq_ok.mpr ⟨(), checkFiles_eq_ok.mpr hfiles, hsurvey⟩

/-- What a run on that directory finds. -/
def Command.Prepared.single : Prepared where
  settings := .usual
  corpus := .single
  survey := {
    report := ⟨1, 1, 1, 0, 0, 0⟩
    draft :=
      ⟨.text "Brand", .text "en", .text "Brand",
        .text "Fields definitions for brand (top-level category)",
        [.chars "category"], []⟩ }

theorem Command.prepared_single (order : SetOrder) :
    prepared order "x" none none none none .single = .ok .single :=
  prepared_eq_ok.mpr ⟨rfl, Corpus.open?_single, Survey.run?_single⟩

/-- Both outputs of that run are written wherever their paths can be placed. -/
theorem Command.writeValue_of_place_single {s : Store}
    (hplace : ∀ bytes bytes', ∃ made left,
      s.place Settings.usual.reportFile bytes = (.ok (), made)
      ∧ made.place Settings.usual.draftFile bytes' = (.ok (), left)) :
    ∃ made left, Survey.writeValue Settings.usual.reportFile
      Prepared.single.survey.report.toValue s
          = (.ok (), made)
      ∧ Survey.writeValue Settings.usual.draftFile
          Prepared.single.survey.draft.toValue made
          = (.ok (), left) := by
  have hreport : (Json.fileText Prepared.single.survey.report.toValue).broken
      = none :=
    Option.isNone_iff_eq_none.mp (by decide +kernel)
  have hdraft : (Json.fileText Prepared.single.survey.draft.toValue).broken
      = none :=
    rfl
  obtain ⟨made, left, hmade, hleft⟩ := hplace _ _
  exact ⟨made, left, Survey.writeValue_eq_ok.mpr ⟨hmade, hreport⟩,
    Survey.writeValue_eq_ok.mpr ⟨hleft, hdraft⟩⟩

theorem Command.writeValue_single :
    ∃ made left, Survey.writeValue Settings.usual.reportFile
      Prepared.single.survey.report.toValue .single
          = (.ok (), made)
      ∧ Survey.writeValue Settings.usual.draftFile
          Prepared.single.survey.draft.toValue made
          = (.ok (), left) :=
  writeValue_of_place_single fun _ _ => ⟨_, _, rfl, rfl⟩

/-- The run ends with code 0, and the two files are all that is
new. -/
theorem Command.run_of_single :
    requestOfLine ["run", "x"] = .run "x" none none none none
      ∧ ((run .written ["run", "x"]).runOn ⟨.single, .fresh none, []⟩).1
          = .ok (.plain 0)
      ∧ Delivered .single .single ["verification.json"] ["brand-type.json"]
          ((run .written ["run", "x"]).runOn
            ⟨.single, .fresh none, []⟩).2.store := by
  obtain ⟨made, left, hreport, hdraft⟩ := writeValue_single
  have hjob : ∃ after, (runJob .written "x" none none none none).runOn
      ⟨.single, .fresh none, []⟩
        = (.ok (), after) ∧ after.store = left :=
    runJob_of_prepared rfl (fun _ _ => rfl) (prepared_single .written)
      hreport hdraft
  obtain ⟨after, hjob, _⟩ := hjob
  have hanswer :
      ((run .written ["run", "x"]).runOn ⟨.single, .fresh none, []⟩).1
      = .ok (.plain 0) := by
    show ((supervised (runJob .written "x" none none none none)).runOn _).1 = _
    rw [runOn_supervised, hjob]
  obtain ⟨p, reportPlace, draftPlace, hprepared, hreportPlace, hdraftPlace,
      hdelivered⟩ :=
      ((run_changes_outputs_only .written ["run", "x"]
        ⟨.single, .fresh none, []⟩).2 "x" none none none none rfl).2 _
        hanswer rfl
  cases hprepared.symm.trans (prepared_single .written)
  -- a file in the working directory is where its name says, whatever the store
  -- holds
  cases hreportPlace.symm.trans
    (show _ = Except.ok ["verification.json"] from rfl)
  cases hdraftPlace.symm.trans (show _ = Except.ok ["brand-type.json"] from rfl)
  exact ⟨rfl, hanswer, hdelivered (by decide)⟩

end LeafSurvey
