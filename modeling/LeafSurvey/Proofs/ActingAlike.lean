import LeafSurvey.Proofs.Commands
import LeafSurvey.Proofs.SharedReads

/-!
# Commands on stores that read alike

A command looks at its settings file and at the files of its corpus. On two
stores where these are the same it answers, shows and writes the same lines, up
to the point where a run writes its outputs.

* `Job.ActsAlike`: a job that does the same on two stores and changes neither;
* `SeesSame.findings`: the work of a run up to its outputs;
* `SeesSame.answer`: every other command, to its end.
-/

namespace LeafSurvey

namespace Job

variable {α β : Type}

/-- A job ends, shows and writes lines on one store as on another, and changes
neither. -/
def ActsAlike (job : Job α) (s t : Store) : Prop :=
  ∀ console lines, ∃ outcome console' lines',
    job.runOn ⟨s, console, lines⟩ = (outcome, ⟨s, console', lines'⟩)
      ∧ job.runOn ⟨t, console, lines⟩ = (outcome, ⟨t, console', lines'⟩)

namespace ActsAlike

variable {s t : Store}

theorem pure (a : α) : ActsAlike (Pure.pure a : Job α) s t :=
  fun _ _ => ⟨_, _, _, rfl, rfl⟩

theorem throw (failure : Failure) :
    ActsAlike (MonadExcept.throw failure : Job α) s t :=
  fun _ _ => ⟨_, _, _, rfl, rfl⟩

theorem reading {f : Store → Except Failure α} (h : f t = f s) :
    ActsAlike (reading f) s t := by
  intro console lines
  rw [runOn_reading, runOn_reading, h]
  exact ⟨_, _, _, rfl, rfl⟩

theorem notify (n : Notice) : ActsAlike (notify n) s t := by
  intro console lines
  simp only [runOn_notify]
  cases console.failure? n with
  | some failure => exact ⟨_, _, _, rfl, rfl⟩
  | none => exact ⟨_, _, _, rfl, rfl⟩

/-- What follows has to act alike on the answers that there are. -/
theorem bind {x : Job α} {f : α → Job β} (hx : x.ActsAlike s t)
    (hf : ∀ a, (∃ m : Machine, m.store = s ∧ (x.runOn m).1 = .ok a) →
      (f a).ActsAlike s t) :
    (x >>= f).ActsAlike s t := by
  intro console lines
  obtain ⟨outcome, console', lines', hs, ht⟩ := hx console lines
  rw [runOn_bind, runOn_bind, hs, ht]
  cases outcome with
  | error failure => exact ⟨_, _, _, rfl, rfl⟩
  | ok a => exact hf a ⟨_, rfl, congrArg Prod.fst hs⟩ console' lines'

end ActsAlike

end Job

namespace Survey

variable {c : Corpus} {s t : Store}

theorem actsAlike_job (h : s.ReadsAlike t c.files) (settings : Settings) :
    (job c settings).ActsAlike s t :=
  .bind (.reading h.checkFiles) fun _ _ => .bind (.notify _) fun _ _ =>
    .reading (h.assemble settings)

theorem actsAlike_showSchema (h : s.ReadsAlike t c.files) (delimiter : Value) :
    (showSchema c delimiter).ActsAlike s t :=
  .bind (.notify _) fun _ _ =>
    .bind (.reading (h.schemaTable delimiter)) fun _ _ => .notify _

theorem actsAlike_showCounts (h : s.ReadsAlike t c.files) :
    (showCounts c).ActsAlike s t :=
  .bind (.reading h.countTable) fun _ _ => .notify _

end Survey

namespace Command

variable {s t : Store}

theorem actsAlike_settle (failure : Failure) :
    (settle failure).ActsAlike s t := by
  unfold settle
  split
  · exact .bind (.notify _) fun _ _ => .pure _
  split
  · exact .bind (.notify _) fun _ _ => .pure _
  · exact .throw failure

theorem actsAlike_supervised {work : Job Unit} (h : work.ActsAlike s t) :
    (supervised work).ActsAlike s t := by
  intro console lines
  obtain ⟨outcome, console', lines', hs, ht⟩ := h console lines
  rw [runOn_supervised, runOn_supervised, hs, ht]
  cases outcome with
  | error failure => exact actsAlike_settle failure console' lines'
  | ok _ => exact ⟨_, _, _, rfl, rfl⟩

/-! ## What a command looks at -/

/-- The directory that a request is about. -/
def Request.directory? : Request → Option String
  | .run directory _ _ _ _ => some directory
  | .schema directory _ => some directory
  | .count directory => some directory
  | _ => none

/-- A request finds the same settings, the same corpus and the same files on two
stores. -/
structure SeesSame (s t : Store) (request : Request) : Prop where
  settings : ∀ order file, request.settingsFile? = some file →
    Settings.load order t (some file) = Settings.load order s (some file)
  corpus : ∀ directory, request.directory? = some directory →
    Corpus.open? t (.ofString directory) = Corpus.open? s (.ofString directory)
  files : ∀ directory c, request.directory? = some directory →
    Corpus.open? s (.ofString directory) = .ok c → s.ReadsAlike t c.files

theorem SeesSame.refl (s : Store) (request : Request) : SeesSame s s request :=
  ⟨fun _ _ _ => rfl, fun _ _ => rfl, fun _ _ _ _ => .refl s _⟩

theorem fileSettings_congr {order : SetOrder} {config : Option Given}
    (h : ∀ file, config = some (.text file) →
      Settings.load order t (some file) = Settings.load order s (some file)) :
    fileSettings order t config = fileSettings order s config := by
  cases config with
  | none => rfl
  | some given =>
    cases given with
    | text file => exact h file rfl
    | nothing => rfl

variable {order : SetOrder} {directory : String}
  {config report draft key : Option Given}

namespace SeesSame

theorem runSettings
    (h : SeesSame s t (.run directory config report draft key)) :
    Command.runSettings order config report draft key t
      = Command.runSettings order config report draft key s := by
  rw [Command.runSettings, Command.runSettings, fileSettings_congr]
  rintro file rfl
  exact h.settings order file rfl

theorem prepared (h : SeesSame s t (.run directory config report draft key)) :
    Command.prepared order directory config report draft key t
      = Command.prepared order directory config report draft key s := by
  rw [Command.prepared, Command.prepared, h.runSettings, h.corpus directory rfl]
  cases Command.runSettings order config report draft key s with
  | error failure => rfl
  | ok settings =>
    cases hopen : Corpus.open? s (.ofString directory) with
    | error failure => rfl
    | ok c =>
      show (Survey.run? c settings t >>= _) = (Survey.run? c settings s >>= _)
      rw [(h.files directory c rfl hopen).run? settings]

theorem findings (h : SeesSame s t (.run directory config report draft key)) :
    (Command.findings order directory config report draft key).ActsAlike
      s t := by
  refine .bind (.reading h.runSettings) fun settings _ => ?_
  refine .bind (.reading (h.corpus directory rfl)) fun c hc => ?_
  obtain ⟨m, rfl, hopen⟩ := hc
  rw [Job.runOn_reading] at hopen
  exact .bind (Survey.actsAlike_job (h.files directory c rfl hopen) settings)
    fun _ _ => .pure _

/-- A run that does not come to its outputs acts alike to its end. -/
theorem run_of_error (h : SeesSame s t (.run directory config report draft key))
    {failure : Failure}
    (hfails : Command.prepared order directory config report draft key s
      = .error failure) :
    (Command.answer order (.run directory config report draft key)).ActsAlike
      s t := by
  refine actsAlike_supervised ?_
  rw [runJob_eq_findings]
  refine .bind h.findings fun p hp => ?_
  obtain ⟨m, rfl, hp⟩ := hp
  cases (prepared_of_findings hp).symm.trans hfails

/-- All commands but runs act alike. -/
theorem answer {request : Request} (h : SeesSame s t request)
    (hother : ∀ directory config report draft key,
      request ≠ .run directory config report draft key) :
    (Command.answer order request).ActsAlike s t := by
  cases request with
  | version => exact .bind (.notify _) fun _ _ => .pure _
  | help program => exact .pure _
  | complaint program message => exact .pure _
  | run directory config report draft key =>
    exact absurd rfl (hother directory config report draft key)
  | schema directory config =>
    have hsettings : fileSettings order t config
        = fileSettings order s config := by
      refine fileSettings_congr ?_
      rintro file rfl
      exact h.settings order file rfl
    refine actsAlike_supervised
      (.bind (.reading hsettings) fun settings _ => ?_)
    refine .bind (.reading (h.corpus directory rfl)) fun c hc => ?_
    obtain ⟨m, rfl, hopen⟩ := hc
    rw [Job.runOn_reading] at hopen
    exact Survey.actsAlike_showSchema (h.files directory c rfl hopen) _
  | count directory =>
    refine actsAlike_supervised
      (.bind (.reading (h.corpus directory rfl)) fun c hc => ?_)
    obtain ⟨m, rfl, hopen⟩ := hc
    rw [Job.runOn_reading] at hopen
    exact Survey.actsAlike_showCounts (h.files directory c rfl hopen)

end SeesSame

end Command

end LeafSurvey
