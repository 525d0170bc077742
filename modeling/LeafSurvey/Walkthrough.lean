import LeafSurvey.Settings.File
import LeafSurvey.Survey

/-!
# Walkthroughs

Two small programs that show how a survey is used from the outside.
`Walkthrough.draft` shows the fields of a directory, then surveys it and writes
the outputs. `Walkthrough.inspect` writes what it finds as plain lines: the
leaves of every file, the fields with their types, and the report. Each takes a
directory and a settings file as optional arguments.
-/

namespace LeafSurvey.Walkthrough

/-- The directory that `draft` surveys when none is given. -/
def draftDirectory : String := "data/response-body-config-appinit/web"

/-- The directory that `inspect` surveys when none is given. -/
def inspectDirectory : String := "data/web"

/-- Shows the fields of a directory, surveys it and writes the outputs. -/
def draft (order : SetOrder) (args : List String) : Job Unit := do
  let directory := args[0]?.getD draftDirectory
  Job.say ("Loading " ++ directory ++ "...")
  let corpus ← Job.reading fun s => Corpus.open? s (.ofString directory)
  Survey.showSchema corpus (.text Settings.usualDelimiter)
  let settings ← Job.reading fun s => Settings.load order s args[1]?
  let outcome ← Survey.job corpus settings
  discard (outcome.write settings)
  Job.say ("Generated " ++ toString outcome.draft.fields.length
    ++ " field definitions.")

/-- Verifies the files one by one and writes a line for each. -/
def inspectFiles : List FilePath → Job Unit
  | [] => return ()
  | file :: rest => do
    let leaves ← Job.reading fun s => s.checkFile file
    Job.say ("  " ++ file.name ++ ": " ++ toString leaves ++ " leaves")
    inspectFiles rest

/-- Surveys a directory and writes plain lines on what is there. -/
def inspect (order : SetOrder) (args : List String) : Job Unit := do
  let directory := args[0]?.getD inspectDirectory
  let settings ← Job.reading fun s => Settings.load order s args[1]?
  let corpus ← Job.reading fun s => Corpus.open? s (.ofString directory)
  Job.say ("Found " ++ toString corpus.files.length ++ " documents under "
    ++ directory)
  inspectFiles corpus.files
  let outcome ← Survey.job corpus settings
  outcome.draft.fields.forM fun d =>
    Job.say ("  " ++ d.name ++ ": " ++ d.type.toValue.quoted)
  Job.say outcome.report.toValue.quoted

end LeafSurvey.Walkthrough
