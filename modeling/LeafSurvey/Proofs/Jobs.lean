import LeafSurvey.Job

/-!
# How jobs run

A job threads a machine through its parts and ends with the first of them that
fails. These lemmas run the building blocks: a sequence of two jobs, a job that
reads, a job that changes files and a notice. Reading leaves the machine as it
is, and a notice leaves its files as they are; `Job.KeepsFiles` collects what is
made of such parts alone.

A notice meets a failure when the console interrupts it or cannot lay out its
markup (`Console.failure?`). Only the closing notice of a survey and the tables
hold texts that a console can refuse.
-/

namespace LeafSurvey

namespace Console

/-- Whether the next attempt to show a notice is interrupted. -/
def interruptsNext (c : Console) : Bool :=
  c.interruptAt = some (c.attempts + 1)

theorem interruptsNext_of_none {c : Console} (h : c.interruptAt = none) :
    c.interruptsNext = false := by
  simp [interruptsNext, h]

/-- The console refuses no text that stands in a notice as it is. -/
def LaysOut (c : Console) (n : Notice) : Prop :=
  ∀ text ∈ n.openTexts, c.refuses text = false

/-- A notice without such texts is laid out on every console. -/
theorem laysOut_of_closed (c : Console) {n : Notice} (h : n.openTexts = []) :
    c.LaysOut n := by
  simp [LaysOut, h]

/-- The failure that a notice meets on a console, if it meets one. -/
def failure? (c : Console) (n : Notice) : Option Failure :=
  if c.interruptsNext then some .interrupted
  else if n.openTexts.any c.refuses then some .brokenMarkup
  else none

theorem failure?_of_laysOut {c : Console} {n : Notice} (h : c.LaysOut n) :
    c.failure? n = if c.interruptsNext then some .interrupted else none := by
  have hnone : n.openTexts.any c.refuses = false := by simpa [LaysOut] using h
  rw [failure?, hnone]
  rfl

/-- A notice meets no failure exactly where nothing interrupts or refuses it. -/
theorem failure?_eq_none {c : Console} {n : Notice} :
    c.failure? n = none ↔ c.interruptsNext = false ∧ c.LaysOut n := by
  unfold failure? LaysOut
  split
  · simp_all
  split <;> simp_all

/-- A notice that is not laid out is refused, where nothing interrupts it. -/
theorem failure?_of_not_laysOut {c : Console} {n : Notice} (h : ¬c.LaysOut n)
    (hquiet : c.interruptAt = none) : c.failure? n = some .brokenMarkup := by
  have hsome : n.openTexts.any c.refuses = true := by simpa [LaysOut] using h
  rw [failure?, interruptsNext_of_none hquiet, hsome]
  rfl

/-- The console after one more attempt to show a notice. -/
def attempted (c : Console) : Console :=
  { c with attempts := c.attempts + 1 }

/-- The console with one more notice. -/
def showing (c : Console) (n : Notice) : Console :=
  { c with shown := c.shown ++ [n] }

end Console

namespace Machine

/-- The machine with another console. -/
def withConsole (m : Machine) (c : Console) : Machine :=
  { m with console := c }

/-- The machine with other files. -/
def withStore (m : Machine) (s : Store) : Machine :=
  { m with store := s }

/-- Two machines hold the same files, and their consoles are set up to the same
interrupt and the same refusals. -/
structure SameFiles (m left : Machine) : Prop where
  store : left.store = m.store
  interruptAt : left.console.interruptAt = m.console.interruptAt
  refuses : left.console.refuses = m.console.refuses

theorem SameFiles.refl (m : Machine) : m.SameFiles m :=
  ⟨rfl, rfl, rfl⟩

theorem SameFiles.trans {m mid left : Machine} (h : m.SameFiles mid)
    (h' : mid.SameFiles left) :
    m.SameFiles left :=
  ⟨h'.store.trans h.store, h'.interruptAt.trans h.interruptAt,
    h'.refuses.trans h.refuses⟩

theorem SameFiles.laysOut_iff {m left : Machine} (h : m.SameFiles left)
    {n : Notice} :
    left.console.LaysOut n ↔ m.console.LaysOut n := by
  simp only [Console.LaysOut, h.refuses]

end Machine

namespace Job

variable {α β : Type}

/-- A job that is followed by another hands on its answer and its machine. -/
theorem runOn_bind (x : Job α) (f : α → Job β) (m : Machine) :
    (x >>= f).runOn m
      = match x.runOn m with
        | (.ok a, left) => (f a).runOn left
        | (.error failure, left) => (.error failure, left) := by
  unfold runOn
  rw [ExceptT.run_bind, StateT.run_bind]
  show (match x.run.run m with | (outcome, left) => _) = _
  rcases x.run.run m with ⟨outcome, left⟩
  cases outcome with
  | ok a => rfl
  | error failure => rfl

/-- A job that fails is followed by what its failure calls for. -/
theorem runOn_tryCatch (x : Job α) (f : Failure → Job α) (m : Machine) :
    (tryCatch x f).runOn m
      = match x.runOn m with
        | (.ok a, left) => (.ok a, left)
        | (.error failure, left) => (f failure).runOn left := by
  unfold runOn
  rw [ExceptT.run_tryCatch, StateT.run_bind]
  show (match x.run.run m with | (outcome, left) => _) = _
  rcases x.run.run m with ⟨outcome, left⟩
  cases outcome with
  | ok a => rfl
  | error failure => rfl

/-- Reading answers with what the files hold and changes nothing. -/
theorem runOn_reading (f : Store → Except Failure α) (m : Machine) :
    (reading f).runOn m = (f m.store, m) := by
  rw [reading, runOn_bind]
  show Job.runOn _ m = _
  cases f m.store with
  | ok a => rfl
  | error failure => rfl

/-- A change of files stays, whatever the answer. -/
theorem runOn_changing (f : Store → Except Failure α × Store) (m : Machine) :
    (changing f).runOn m = ((f m.store).1, m.withStore (f m.store).2) := by
  rw [changing, runOn_bind]
  show Job.runOn _ m = _
  rcases f m.store with ⟨outcome, changed⟩
  cases outcome with
  | ok a => rfl
  | error failure => rfl

/-- A notice is shown, or it meets a failure. -/
theorem runOn_notify (n : Notice) (m : Machine) :
    (notify n).runOn m
      = match m.console.failure? n with
        | some failure => (.error failure, m.withConsole m.console.attempted)
        | none => (.ok (), m.withConsole (m.console.attempted.showing n)) := by
  show (if m.console.interruptAt = some (m.console.attempts + 1) then
        (throw Failure.interrupted : Job Unit)
      else if n.openTexts.any m.console.refuses = true then
        throw Failure.brokenMarkup
      else modify fun m => m.withConsole (m.console.showing n)).runOn
        (m.withConsole m.console.attempted) = _
  rw [Console.failure?, Console.interruptsNext]
  by_cases hinterrupts : m.console.interruptAt = some (m.console.attempts + 1)
  · rw [if_pos hinterrupts, if_pos (decide_eq_true hinterrupts)]
    rfl
  have hnext : ¬decide (m.console.interruptAt = some (m.console.attempts + 1))
      = true := by
    rw [decide_eq_true_eq]
    exact hinterrupts
  rw [if_neg hinterrupts, if_neg hnext]
  by_cases hrefused : n.openTexts.any m.console.refuses = true
  · rw [if_pos hrefused, if_pos hrefused]
    rfl
  · rw [if_neg hrefused, if_neg hrefused]
    rfl

/-- A notice that the console can lay out is shown, or the console interrupts
the job. -/
theorem runOn_notify_of_laysOut {n : Notice} {m : Machine}
    (h : m.console.LaysOut n) :
    (notify n).runOn m
      = if m.console.interruptsNext then
          (.error .interrupted, m.withConsole m.console.attempted)
        else (.ok (), m.withConsole (m.console.attempted.showing n)) := by
  rw [runOn_notify, Console.failure?_of_laysOut h]
  cases m.console.interruptsNext with
  | true => rfl
  | false => rfl

/-! ## Jobs that answer -/

theorem runOn_bind_eq_ok {x : Job α} {f : α → Job β} {m left : Machine}
    {b : β} :
    (x >>= f).runOn m = (.ok b, left)
      ↔ ∃ a mid, x.runOn m = (.ok a, mid)
          ∧ (f a).runOn mid = (.ok b, left) := by
  rw [runOn_bind]
  rcases x.runOn m with ⟨failure | a, mid⟩
  · simp
  · constructor
    · intro h
      exact ⟨a, mid, rfl, h⟩
    · rintro ⟨a', mid', hx, h⟩
      cases hx
      exact h

theorem runOn_bind_eq_error {x : Job α} {f : α → Job β} {m left : Machine}
    {failure : Failure} :
    (x >>= f).runOn m = (.error failure, left)
      ↔ x.runOn m = (.error failure, left)
      ∨ ∃ a mid, x.runOn m = (.ok a, mid)
          ∧ (f a).runOn mid = (.error failure, left) := by
  rw [runOn_bind]
  rcases x.runOn m with ⟨failure' | a, mid⟩
  · simp
  · constructor
    · intro h
      exact .inr ⟨a, mid, rfl, h⟩
    · rintro (h | ⟨a', mid', hx, h⟩)
      · cases h
      · cases hx
        exact h

theorem runOn_discard_eq_ok {x : Job α} {m left : Machine} :
    (discard x).runOn m = (.ok (), left) ↔ ∃ a, x.runOn m = (.ok a, left) := by
  have hdiscard : discard x = x >>= fun _ => (pure () : Job Unit) := rfl
  rw [hdiscard, runOn_bind_eq_ok]
  constructor
  · rintro ⟨a, mid, hx, h⟩
    cases h
    exact ⟨a, hx⟩
  · rintro ⟨a, hx⟩
    exact ⟨a, left, hx, rfl⟩

theorem runOn_reading_eq_ok {f : Store → Except Failure α} {m left : Machine}
    {a : α} :
    (reading f).runOn m = (.ok a, left) ↔ f m.store = .ok a ∧ m = left := by
  simp [runOn_reading]

theorem runOn_changing_eq {f : Store → Except Failure α × Store}
    {m left : Machine} {outcome : Except Failure α} :
    (changing f).runOn m = (outcome, left)
      ↔ f m.store = (outcome, left.store) ∧ left = m.withStore left.store := by
  rw [runOn_changing, Prod.mk.injEq]
  constructor
  · rintro ⟨houtcome, rfl⟩
    exact ⟨Prod.ext houtcome rfl, rfl⟩
  · rintro ⟨hf, hleft⟩
    rw [hf]
    exact ⟨rfl, hleft.symm⟩

/-! ## Files that stay -/

/-- The job leaves all files as they are, also when it fails. -/
def KeepsFiles (job : Job α) : Prop :=
  ∀ m : Machine, m.SameFiles (job.runOn m).2

namespace KeepsFiles

theorem sameFiles {job : Job α} (h : job.KeepsFiles) {m left : Machine}
    {outcome : Except Failure α} (hrun : job.runOn m = (outcome, left)) :
    m.SameFiles left := by
  have hkept := h m
  rwa [hrun] at hkept

theorem pure (a : α) : KeepsFiles (Pure.pure a : Job α) :=
  fun m => .refl m

theorem throw (failure : Failure) :
    KeepsFiles (MonadExcept.throw failure : Job α) :=
  fun m => .refl m

theorem reading (f : Store → Except Failure α) : KeepsFiles (reading f) := by
  intro m
  rw [runOn_reading]
  exact .refl m

theorem notify (n : Notice) : KeepsFiles (notify n) := by
  intro m
  rw [runOn_notify]
  split <;> exact ⟨rfl, rfl, rfl⟩

theorem bind {x : Job α} {f : α → Job β} (hx : x.KeepsFiles)
    (hf : ∀ a, (f a).KeepsFiles) :
    (x >>= f).KeepsFiles := by
  intro m
  have hfirst := hx m
  rw [runOn_bind]
  rcases hrun : x.runOn m with ⟨failure | a, mid⟩ <;> rw [hrun] at hfirst
  · exact hfirst
  · exact hfirst.trans (hf a mid)

end KeepsFiles

end Job

end LeafSurvey
