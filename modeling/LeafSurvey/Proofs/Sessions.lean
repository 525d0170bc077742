import LeafSurvey.Proofs.Jobs
import LeafSurvey.Session

/-!
# What tasks leave to their session

What a session has kept is its settings, corpora, passes and surveys. A task is
*quiet* if it never touches them, and *careful* if it does not touch them where
it fails. A task that reads and works on files is quiet, and a quiet part in
front of a careful one leaves it careful; so a task that keeps what it has made
as the last thing it does is careful.

* `run_job`: a job leaves its machine to the session, also where it fails;
* `perform_of_error`: a careful task that fails leaves all that the session had
  kept;
* `IsCareful.openCorpus` and the lemmas after it: the tasks that keep something
  are careful, and all other tasks are quiet.
-/

namespace LeafSurvey.Session

/-- Two sessions have kept the same things. -/
structure SameKept (s left : Session) : Prop where
  settings : left.settings = s.settings
  corpora : left.corpora = s.corpora
  passes : left.passes = s.passes
  surveys : left.surveys = s.surveys

theorem SameKept.refl (s : Session) : s.SameKept s :=
  ⟨rfl, rfl, rfl, rfl⟩

theorem SameKept.trans {s mid left : Session} (h : s.SameKept mid)
    (h' : mid.SameKept left) :
    s.SameKept left :=
  ⟨h'.settings.trans h.settings, h'.corpora.trans h.corpora,
    h'.passes.trans h.passes, h'.surveys.trans h.surveys⟩

variable {α β : Type}

/-- A task that is followed by another hands on its answer and its session. -/
theorem run_bind (x : Task α) (f : α → Task β) (s : Session) :
    (x >>= f).run.run s
      = match x.run.run s with
        | (.ok a, left) => (f a).run.run left
        | (.error fault, left) => (.error fault, left) := by
  rw [ExceptT.run_bind, StateT.run_bind]
  show (match x.run.run s with | (outcome, left) => _) = _
  rcases x.run.run s with ⟨outcome, left⟩
  cases outcome with
  | ok a => rfl
  | error fault => rfl

/-- A job leaves its machine to the session, whether it fails or not: what it
has shown and written stays. -/
theorem run_job (j : Job α) (s : Session) :
    (job j).run.run s
      = ((j.runOn s.machine).1.mapError .failed,
          { s with machine := (j.runOn s.machine).2 }) := by
  rw [job, run_bind]
  show StateT.run (ExceptT.run _) s = _
  rcases j.runOn s.machine with ⟨outcome, machine⟩
  cases outcome with
  | ok a => rfl
  | error failure => rfl

/-- The task never touches what the session has kept. -/
def IsQuiet (task : Task α) : Prop :=
  ∀ s : Session, s.SameKept (task.run.run s).2

/-- The task does not touch what the session has kept, where it fails. -/
def IsCareful (task : Task α) : Prop :=
  ∀ s fault left, task.run.run s = (.error fault, left) → s.SameKept left

/-- A careful task that fails leaves all that the session had kept. -/
theorem perform_of_error {task : Task α} (h : IsCareful task) {s left : Session}
    {interruptAt : Option Nat} {fault : Fault}
    (hrun : s.perform interruptAt task = (.error fault, left)) :
    s.SameKept left := by
  have hbegin : s.SameKept (s.begin interruptAt) := ⟨rfl, rfl, rfl, rfl⟩
  exact hbegin.trans (h _ _ _ hrun)

namespace IsQuiet

theorem isCareful {task : Task α} (h : IsQuiet task) : IsCareful task := by
  intro s fault left hrun
  have hkept := h s
  rwa [hrun] at hkept

theorem pure (a : α) : IsQuiet (Pure.pure a : Task α) :=
  fun s => .refl s

theorem throw (fault : Fault) : IsQuiet (MonadExcept.throw fault : Task α) :=
  fun s => .refl s

theorem bind {x : Task α} {f : α → Task β} (hx : IsQuiet x)
    (hf : ∀ a, IsQuiet (f a)) :
    IsQuiet (x >>= f) := by
  intro s
  have hfirst := hx s
  rw [run_bind]
  rcases hrun : x.run.run s with ⟨fault | a, mid⟩ <;> rw [hrun] at hfirst
  · exact hfirst
  · exact hfirst.trans (hf a mid)

/-- Looking at the session does not touch it. -/
theorem get {f : Session → Task α} (hf : ∀ s, IsQuiet (f s)) :
    IsQuiet (MonadState.get >>= f) :=
  fun s => hf s s

theorem job (j : Job α) : IsQuiet (job j) := by
  intro s
  rw [run_job]
  exact ⟨rfl, rfl, rfl, rfl⟩

theorem reading (f : Store → Except Failure α) : IsQuiet (reading f) :=
  job _

theorem changing (f : Store → Except FileFault α × Store) :
    IsQuiet (changing f) :=
  job _

theorem find (kept : List (String × α)) (name : String) :
    IsQuiet (find kept name) := by
  unfold Session.find
  split
  · exact pure _
  · exact throw _

theorem corpus (name : String) : IsQuiet (corpus name) :=
  get fun s => find s.corpora name

/-- A quiet task on a kept corpus. -/
theorem onCorpus (name : String) {f : Corpus → Task α}
    (hf : ∀ c, IsQuiet (f c)) :
    IsQuiet (Session.corpus name >>= f) :=
  bind (corpus name) hf

/-! ## Tasks that keep nothing -/

theorem writeFile (path : FilePath) (bytes : ByteArray) :
    IsQuiet (writeFile path bytes) :=
  changing _

theorem makeDirectories (path : FilePath) : IsQuiet (makeDirectories path) :=
  changing _

theorem delete (path : FilePath) : IsQuiet (delete path) :=
  changing _

theorem listing : IsQuiet listing :=
  get fun _ => pure _

theorem fileText (path : FilePath) : IsQuiet (fileText path) := by
  refine bind (reading _) fun bytes => ?_
  split
  · exact pure _
  · exact throw _

theorem entries (name : String) : IsQuiet (entries name) :=
  onCorpus name fun _ => reading _

theorem entriesOf (name : String) (path : FilePath) :
    IsQuiet (entriesOf name path) :=
  onCorpus name fun _ => reading _

theorem groups (name : String) : IsQuiet (groups name) :=
  onCorpus name fun _ => reading _

theorem tallies (name : String) : IsQuiet (tallies name) :=
  onCorpus name fun _ => reading _

theorem showCounts (name : String) : IsQuiet (showCounts name) :=
  onCorpus name fun _ => job _

theorem showSchema (name : String) (delimiter : Value) :
    IsQuiet (showSchema name delimiter) :=
  onCorpus name fun _ => job _

theorem checkTotal (name : String) (files : List FilePath) :
    IsQuiet (checkTotal name files) :=
  onCorpus name fun _ => reading _

theorem writeSurvey (name : String) : IsQuiet (writeSurvey name) :=
  get fun s => bind (find s.surveys name) fun _ => get fun _ => job _

end IsQuiet

namespace IsCareful

/-- What is quiet can stand in front of what is careful. -/
theorem after {x : Task α} {f : α → Task β} (hx : IsQuiet x)
    (hf : ∀ a, IsCareful (f a)) :
    IsCareful (x >>= f) := by
  intro s fault left hrun
  have hfirst := hx s
  rw [run_bind] at hrun
  rcases hmid : x.run.run s with ⟨fault' | a, mid⟩ <;> rw [hmid] at hfirst hrun
  · cases hrun
    exact hfirst
  · exact hfirst.trans (hf a mid fault left hrun)

theorem get {f : Session → Task α} (hf : ∀ s, IsCareful (f s)) :
    IsCareful (MonadState.get >>= f) :=
  fun s => hf s s

/-- Keeping something as the last thing does not fail. -/
theorem last (f : Session → Session) (a : α) :
    IsCareful (modify f >>= fun _ => pure a : Task α) := by
  intro s fault left hrun
  cases hrun

/-! ## Tasks that keep something -/

theorem openCorpus (name : String) (root : FilePath) :
    IsCareful (openCorpus name root) :=
  after (.reading _) fun _ => last _ _

theorem startPass (name pass : String) : IsCareful (startPass name pass) :=
  after (.corpus name) fun _ => last _ _

theorem useSettings (order : SetOrder) (file : Option String)
    (overrides : Overrides) :
    IsCareful (useSettings order file overrides) :=
  after (.reading _) fun _ => last _ _

theorem survey (name : String) : IsCareful (survey name) :=
  after (.corpus name) fun _ => get fun _ => after (.job _) fun _ => last _ _

/-- Entries are taken without failing: what stops the taking stands in the
answer. -/
theorem takeEntries (pass : String) (n : Nat) :
    IsCareful (takeEntries pass n) := by
  refine get fun s => ?_
  split
  · exact (IsQuiet.pure _).isCareful
  · exact get fun _ => last _ _

end IsCareful

end LeafSurvey.Session
