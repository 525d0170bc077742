import LeafSurvey.Job
import LeafSurvey.Report

/-!
# The survey

A survey verifies every document of a corpus, verifies the totals, groups the
entries, builds and checks the fields, and answers with a report and a draft.
`Survey.run?` is the whole of it on a store that does not change; `Survey.job`
is the same with its notice. Nothing is written before all checks have passed;
`Survey.write` then writes the report and the draft, in this order.
-/

namespace LeafSurvey

/-- The outcome of a survey. -/
structure Survey where
  report : Report
  draft : Draft
deriving Repr

namespace Survey

/-- Verifies every file of a corpus; the first that fails ends it. -/
def checkFiles (c : Corpus) (s : Store) : Except Failure Unit :=
  c.files.forM fun file => do
    discard (s.checkFile file)

/-- Everything that follows once every file has been verified. -/
def assemble (c : Corpus) (settings : Settings) (s : Store) :
    Except Failure Survey := do
  let total ← s.checkTotal c.files (c.entries s)
  let groups ← c.groups s
  let naming ← settings.naming? groups
  let fields := Field.ofGroups naming groups
  let es ← c.entries s
  Coverage.check (fields.map (·.name)) groups es naming.delimiter
  let draft ← Draft.of? settings fields
  return ⟨Report.ofGroups c.files.length total groups.entryCount groups, draft⟩

/-- The survey of a corpus. -/
def run? (c : Corpus) (settings : Settings) (s : Store) :
    Except Failure Survey := do
  checkFiles c s
  assemble c settings s

/-- The survey of a corpus with the notice that its files are verified. -/
def job (c : Corpus) (settings : Settings) : Job Survey := do
  Job.reading (checkFiles c)
  Job.notify (.verified c.files.length)
  Job.reading (assemble c settings)

/-! ## Output -/

/-- Writes the document form of a value to a file, making the directories above
it. What comes before a value that has no document form is written. -/
def writeValue (path : FilePath) (v : Value) (s : Store) :
    Except Failure Unit × Store :=
  let text := Json.fileText v
  match s.place path (String.ofList text.items).toUTF8 with
  | (.error fault, left) => (.error (.file fault), left)
  | (.ok (), left) =>
    match text.broken with
    | none => (.ok (), left)
    | some cause => (.error (.misuse (.ofLayout cause)), left)

/-- Writes the report and the draft where the settings say. -/
def write (outcome : Survey) (settings : Settings) :
    Job (FilePath × FilePath) := do
  Job.changing (writeValue settings.reportFile outcome.report.toValue)
  Job.changing (writeValue settings.draftFile outcome.draft.toValue)
  Job.notify (.wrote settings.reportFile settings.draftFile
    outcome.draft.fields.length)
  return (settings.reportFile, settings.draftFile)

/-! ## Tables -/

/-- Shows the fields of a corpus. -/
def showSchema (c : Corpus) (delimiter : Value) : Job Unit := do
  Job.notify (.scanning c.files.length)
  let table ← Job.reading (c.schemaTable delimiter)
  Job.notify (.table table)

/-- Shows the leaf counts of a corpus. -/
def showCounts (c : Corpus) : Job Unit := do
  let table ← Job.reading c.countTable
  Job.notify (.table table)

end Survey

end LeafSurvey
