import LeafSurvey.Command.Basic
import LeafSurvey.Pass
import LeafSurvey.Walkthrough

/-!
# Sessions

A session works on one store over many tasks. It keeps corpora, passes and
surveys under names, and the settings that its surveys use. A task that fails
keeps what it has shown and written, and leaves all that the session has kept as
it was. `Session.begin` clears the console before a task.
-/

namespace LeafSurvey

/-- What a session keeps from task to task. -/
structure Session where
  machine : Machine
  settings : Settings
  corpora : List (String × Corpus)
  passes : List (String × Pass)
  surveys : List (String × Survey)

namespace Session

/-- Why a task failed. -/
inductive Fault where
  | failed (failure : Failure)
  /-- Nothing is kept under this name. -/
  | unknown (name : String)
  /-- The file is no UTF-8 text. -/
  | notText (path : FilePath)
deriving DecidableEq, Repr

/-- A task of a session. -/
abbrev Task := ExceptT Fault (StateM Session)

/-- A session on a store, with the usual settings. -/
def on (s : Store) : Session where
  machine := ⟨s, .fresh none, []⟩
  settings := .usual
  corpora := []
  passes := []
  surveys := []

/-- The session before its next task: nothing is shown or written yet. -/
def begin (interruptAt : Option Nat) (s : Session) : Session :=
  { s with machine := ⟨s.machine.store, .fresh interruptAt, []⟩ }

/-- Runs a task. -/
def perform {α : Type} (s : Session) (interruptAt : Option Nat)
    (task : Task α) :
    Except Fault α × Session :=
  task.run.run (s.begin interruptAt)

/-! ## Parts of tasks -/

/-- A job as a task. -/
def job {α : Type} (j : Job α) : Task α := do
  let (outcome, machine) := j.runOn (← get).machine
  modify fun s => { s with machine }
  match outcome with
  | .ok a => return a
  | .error failure => throw (.failed failure)

/-- A task that only reads files. -/
def reading {α : Type} (f : Store → Except Failure α) : Task α :=
  job (Job.reading f)

/-- A task that changes files. -/
def changing {α : Type} (f : Store → Except FileFault α × Store) : Task α :=
  job (Job.changing fun s =>
    let (outcome, s) := f s
    (outcome.mapError Failure.file, s))

/-- What is kept under a name. -/
def find {α : Type} (kept : List (String × α)) (name : String) : Task α :=
  match kept.lookup name with
  | some a => return a
  | none => throw (.unknown name)

/-- Keeps a thing under a name, in place of what was there. -/
def keep {α : Type} (kept : List (String × α)) (name : String) (a : α) :
    List (String × α) :=
  (name, a) :: kept.filter fun k => k.1 ≠ name

/-- The corpus under a name. -/
def corpus (name : String) : Task Corpus := do
  find (← get).corpora name

/-! ## Files -/

/-- Writes a file, making the directories above it. -/
def writeFile (path : FilePath) (bytes : ByteArray) : Task Unit :=
  changing fun s => s.place path bytes

/-- Makes a directory and the missing ones above it. -/
def makeDirectories (path : FilePath) : Task Unit :=
  changing fun s => s.ensureDirectories path

/-- Removes a file, or a directory with everything in it. -/
def delete (path : FilePath) : Task Unit :=
  changing fun s =>
    match s.remove path with
    | .error fault => (.error fault, s)
    | .ok left => (.ok (), left)

/-- The paths of all files and directories. -/
def listing : Task (List String) := do
  return (← get).machine.store.listing

/-- The text of a file. -/
def fileText (path : FilePath) : Task String := do
  let bytes ← reading fun s => (s.read path).mapError .file
  match String.fromUTF8? bytes with
  | some text => return text
  | none => throw (.notText path)

/-! ## Corpora -/

/-- Opens the corpus below a directory and keeps it. -/
def openCorpus (name : String) (root : FilePath) : Task Corpus := do
  let c ← reading fun s => Corpus.open? s root
  modify fun s => { s with corpora := keep s.corpora name c }
  return c

/-- The entries of a kept corpus. -/
def entries (name : String) : Task (List Entry) := do
  let c ← corpus name
  reading c.entries

/-- The entries of a file of a kept corpus. -/
def entriesOf (name : String) (path : FilePath) : Task (List Entry) := do
  let _ ← corpus name
  reading fun s => s.entriesOfFile path

/-- The groups of a kept corpus. -/
def groups (name : String) : Task Groups := do
  let c ← corpus name
  reading c.groups

/-- The leaf counts of a kept corpus. -/
def tallies (name : String) : Task (List Corpus.Tally) := do
  let c ← corpus name
  reading c.tallies

/-- Shows the leaf counts of a kept corpus. -/
def showCounts (name : String) : Task Unit := do
  let c ← corpus name
  job (Survey.showCounts c)

/-- Shows the fields of a kept corpus. -/
def showSchema (name : String) (delimiter : Value) : Task Unit := do
  let c ← corpus name
  job (Survey.showSchema c delimiter)

/-- Starts a pass over a kept corpus and keeps it. -/
def startPass (name pass : String) : Task Unit := do
  let c ← corpus name
  modify fun s => { s with passes := keep s.passes pass (.start c) }

/-- Entries taken from a pass, and what stopped the taking. -/
structure Draw where
  entries : List Entry
  /-- The taking has found that there are no more. -/
  isLast : Bool
  fault : Option Fault
deriving DecidableEq, Repr

/-- Takes at most `n` entries from a kept pass. A pass that is not kept is
missed when an entry is asked for. -/
def takeEntries (pass : String) (n : Nat) : Task Draw := do
  match (← get).passes.lookup pass with
  | none => return ⟨[], false, if n = 0 then none else some (.unknown pass)⟩
  | some p =>
    let (batch, after) := p.take (← get).machine.store n
    modify fun s => { s with passes := keep s.passes pass after }
    return ⟨batch.entries, batch.isLast, batch.failure.map .failed⟩

/-- Checks the entries of a kept corpus against the scalar tokens of some
files. -/
def checkTotal (name : String) (files : List FilePath) : Task Nat := do
  let c ← corpus name
  reading fun s => s.checkTotal files (c.entries s)

/-! ## Surveys -/

/-- Loads settings and keeps them for the surveys that follow. -/
def useSettings (order : SetOrder) (file : Option String)
    (overrides : Overrides) :
    Task Settings := do
  let settings ← reading fun s =>
      do (← Settings.load order s file).override? overrides
  modify fun s => { s with settings }
  return settings

/-- Surveys a kept corpus and keeps the outcome. -/
def survey (name : String) : Task Survey := do
  let c ← corpus name
  let outcome ← job (Survey.job c (← get).settings)
  modify fun s => { s with surveys := keep s.surveys name outcome }
  return outcome

/-- Writes the outcome of the last survey of a kept corpus. -/
def writeSurvey (name : String) : Task (FilePath × FilePath) := do
  let outcome ← find (← get).surveys name
  job (outcome.write (← get).settings)

end Session

end LeafSurvey
