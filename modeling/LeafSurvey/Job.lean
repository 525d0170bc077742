import LeafSurvey.Table
import LeafSurvey.Text.Markup

/-!
# Jobs

A job reads and changes a store, shows notices on a console and writes plain
lines, and ends with an answer or a failure. Whatever it has shown and written
before it fails stays. A console may be set up to interrupt a job at one of its
notices; that notice is not shown, and later ones are. Paths and keys can stand
in a notice as they are, and a console may refuse what they make of its markup;
that notice is not shown either.
-/

namespace LeafSurvey

/-- What a job shows on the console. -/
inductive Notice where
  | verified (files : Nat)
  | wrote (report draft : FilePath) (fields : Nat)
  | scanning (files : Nat)
  | table (t : Table)
  | version
  | failed (failure : Failure)
  | interrupted
deriving DecidableEq, Repr

/-- The version of this survey. -/
def versionText : String := "0.1.0"

/-- A line that reports a failure message. -/
def errorLine (message : String) : String :=
  "[bold red]Error: " ++ Text.Markup.escape message ++ "[/bold red]"

namespace Notice

/-- The markup of a notice that is a line. -/
def line? : Notice → Option String
  | verified files =>
    some ("[bold green]OK: verified " ++ toString files
      ++ " files[/bold green]")
  | wrote report draft fields =>
    some ("[bold green]Wrote " ++ report.text ++ " and " ++ draft.text ++ " ("
      ++ toString fields
      ++ " fields)[/bold green]")
  | scanning files =>
    some ("[bold blue]Scanning schema for " ++ toString files
      ++ " files...[/bold blue]")
  | table _ => none
  | version => some ("typedraft version " ++ versionText)
  | failed failure => some (errorLine failure.message)
  | interrupted => some "\n[yellow]Interrupted.[/yellow]"

/-- The markup texts of a notice in which paths or keys stand as they are. In
every other notice stand fixed texts, numbers and what has been escaped. -/
def openTexts : Notice → List String
  | wrote report draft fields => (wrote report draft fields).line?.toList
  | table t => t.rows.flatten
  | _ => []

/-- The plain lines of a notice. -/
def lines : Notice → List String
  | table t => t.lines
  | n => n.line?.toList

end Notice

/-- The console: the notices shown, how often a job has tried to show one, at
which attempt it is interrupted, and which markup it cannot lay out. -/
structure Console where
  shown : List Notice
  attempts : Nat
  interruptAt : Option Nat
  refuses : String → Bool

namespace Console

/-- A console that has shown nothing and takes all markup as it is. -/
def fresh (interruptAt : Option Nat) :
    Console := ⟨[], 0, interruptAt, fun _ => false⟩

end Console

/-- What a job works on. -/
structure Machine where
  store : Store
  console : Console
  /-- The plain lines written. -/
  lines : List String

/-- A computation that may show notices, change files and fail. -/
abbrev Job := ExceptT Failure (StateM Machine)

namespace Job

/-- A job that only reads files. -/
def reading {α : Type} (f : Store → Except Failure α) : Job α := do
  match f (← get).store with
  | .ok a => return a
  | .error failure => throw failure

/-- A job that changes files. The change stays also when it fails. -/
def changing {α : Type} (f : Store → Except Failure α × Store) : Job α := do
  let (outcome, store) := f (← get).store
  modify fun m => { m with store }
  match outcome with
  | .ok a => return a
  | .error failure => throw failure

/-- Shows a notice, unless the console interrupts or refuses it. -/
def notify (n : Notice) : Job Unit := do
  let c := (← get).console
  modify fun m => { m with console := { c with attempts := c.attempts + 1 } }
  if c.interruptAt = some (c.attempts + 1) then throw .interrupted
  if n.openTexts.any c.refuses then throw .brokenMarkup
  modify fun m => { m with
    console := { m.console with shown := m.console.shown ++ [n] } }

/-- Writes a plain line. -/
def say (line : String) : Job Unit :=
  modify fun m => { m with lines := m.lines ++ [line] }

/-- Runs a job on a machine. -/
def runOn {α : Type} (job : Job α) (m : Machine) : Except Failure α × Machine :=
  job.run.run m

end Job

end LeafSurvey
