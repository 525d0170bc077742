import LeafSurvey.Command.Arguments
import LeafSurvey.Settings.File
import LeafSurvey.Survey

/-!
# Commands

`run` surveys a directory and writes the outputs, `schema` shows the fields and
`count` the leaf counts. A command line that asks for help or is not understood
ends at once. A command that fails with a reported failure says so on the
console and ends with code 1, an interrupted one with code 130; any other
failure is passed on.
-/

namespace LeafSurvey.Command

/-! ## Grammars -/

/-- The name of the program. -/
def programName : String := "typedraft"

/-- The option for a settings file. -/
def configForm : OptionForm := ⟨["-c", "--config"], true⟩

/-- The grammar of `run`. -/
def runGrammar : Grammar where
  program := programName ++ " run"
  options := [helpForm, configForm, ⟨["--report"], true⟩, ⟨["--draft"], true⟩,
    ⟨["--key"], true⟩, ⟨["--no-progress"], false⟩]
  positional := .one "directory"

/-- The grammar of `schema`. -/
def schemaGrammar : Grammar where
  program := programName ++ " schema"
  options := [helpForm, configForm]
  positional := .one "directory"

/-- The grammar of `count`. -/
def countGrammar : Grammar where
  program := programName ++ " count"
  options := [helpForm]
  positional := .one "directory"

/-- The commands with their grammars. -/
def commands : List (String × Grammar) :=
  [("run", runGrammar), ("schema", schemaGrammar), ("count", countGrammar)]

/-- The grammar of a whole line. -/
def lineGrammar : Grammar where
  program := programName
  options := [helpForm, ⟨["--version"], false⟩]
  positional := .command (commands.map (·.1))

/-- How a program is called. -/
def usage (program : String) : String :=
  "usage: " ++ program ++
    if program = runGrammar.program then
      " [-h] [-c CONFIG] [--report REPORT] [--draft DRAFT] [--key KEY] [--no-progress] directory"
    else if program = schemaGrammar.program then " [-h] [-c CONFIG] directory"
    else if program = countGrammar.program then " [-h] directory"
    else " [-h] [--version] \x7brun,schema,count\x7d ..."

/-! ## From a line to a command -/

/-- What a command line asks for. -/
inductive Request where
  | version
  /-- The usage of a program. -/
  | help (program : String)
  | run (directory : String) (config report draft key : Option Given)
  | schema (directory : String) (config : Option Given)
  | count (directory : String)
  /-- The line is not understood. -/
  | complaint (program message : String)
deriving DecidableEq, Repr

namespace Request

/-- Whether a request looks at files at all. -/
def needsFiles : Request → Bool
  | run _ _ _ _ _ => true
  | schema _ _ => true
  | count _ => true
  | _ => false

/-- The settings file that a request names. -/
def settingsFile? : Request → Option String
  | run _ (some (.text config)) _ _ _ => some config
  | schema _ (some (.text config)) => some config
  | _ => none

end Request

/-- What a line ends in when its arguments stop early. -/
def stopped (program : String) : Stop → Request
  | .help => .help program
  | .complaint message => .complaint program message

/-- The request of a command with its arguments. -/
def requestOf (command : String) (a : Arguments) : Request :=
  let directory := (a.positional.getD []).headD ""
  let config := a.value? "--config"
  if command = "run" then
    .run directory config (a.value? "--report") (a.value? "--draft")
      (a.value? "--key")
  else if command = "schema" then .schema directory config
  else .count directory

/-- The request of a line, unless arguments are left over. -/
def unlessLeft (extras : List String) (request : Request) : Request :=
  if extras.isEmpty then request
  else .complaint programName
    ("unrecognized arguments: " ++ " ".intercalate extras)

/-- The request of a command line. -/
def requestOfLine (args : List String) : Request :=
  match lineGrammar.parse args with
  | .error stop => stopped programName stop
  | .ok line =>
    let asked (request : Request) : Request :=
      if line.has "--version" then .version else request
    match line.positional with
    | some (command :: rest) =>
      let grammar := (commands.lookup command).getD countGrammar
      match grammar.parse rest with
      | .error stop => stopped grammar.program stop
      | .ok a =>
        unlessLeft (line.extras ++ a.extras) (asked (requestOf command a))
    | _ => unlessLeft line.extras (asked (.help programName))

/-! ## Running -/

/-- How a command line has ended: the code, and the help or the complaint that
it wrote. -/
structure Ending where
  code : Nat
  help : Option String
  complaint : Option String
deriving DecidableEq, Repr

namespace Ending

/-- An end without help and complaint. -/
def plain (code : Nat) : Ending := ⟨code, none, none⟩

end Ending

/-- The value that a setting takes from what is given for an option. Where no
value is given in the place of one, the value is an empty list. -/
def settingValue : Given → Value
  | .text value => .text value
  | .nothing => .list []

/-- An override for a setting, when something is given for it. -/
def override (name : String) (given : Option Given) : Overrides :=
  (given.map fun g => (name, settingValue g)).toList

/-- The settings of the file that an option names. -/
def fileSettings (order : SetOrder) (s : Store) :
    Option Given → Except Failure Settings
  | none => Settings.load order s none
  | some (.text file) => Settings.load order s (some file)
  | some .nothing => .error (.misuse .pathNotText)

/-- The settings of a run: those of the file, overridden by the options. -/
def runSettings (order : SetOrder) (config report draft key : Option Given)
    (s : Store) :
    Except Failure Settings := do
  let settings ← fileSettings order s config
  settings.override?
    (override "report_path" report ++ override "draft_path" draft
      ++ override "key" key)

/-- The work of `run`. -/
def runJob (order : SetOrder) (directory : String)
    (config report draft key : Option Given) :
    Job Unit := do
  let settings ← Job.reading (runSettings order config report draft key)
  let corpus ← Job.reading fun s => Corpus.open? s (.ofString directory)
  let outcome ← Survey.job corpus settings
  discard (outcome.write settings)

/-- The work of `schema`. -/
def schemaJob (order : SetOrder) (directory : String) (config : Option Given) :
    Job Unit := do
  let settings ← Job.reading fun s => fileSettings order s config
  let corpus ← Job.reading fun s => Corpus.open? s (.ofString directory)
  Survey.showSchema corpus settings.delimiter

/-- The work of `count`. -/
def countJob (directory : String) : Job Unit := do
  let corpus ← Job.reading fun s => Corpus.open? s (.ofString directory)
  Survey.showCounts corpus

/-- Ends with the code for a failure after reporting it, or passes it on. -/
def settle (failure : Failure) : Job Ending := do
  if failure = .interrupted then
    Job.notify .interrupted
    return .plain 130
  else if failure.isReported then
    Job.notify (.failed failure)
    return .plain 1
  else throw failure

/-- Runs work to its end. -/
def supervised (work : Job Unit) : Job Ending :=
  tryCatch (do work; return .plain 0) settle

/-- Answers a request in a process that goes through sets in an order. -/
def answer (order : SetOrder) : Request → Job Ending
  | .version => do Job.notify .version; return .plain 0
  | .help program => return ⟨0, some (usage program), none⟩
  | .complaint program message =>
    return ⟨2, none, some (program ++ ": error: " ++ message)⟩
  | .run directory config report draft key =>
    supervised (runJob order directory config report draft key)
  | .schema directory config => supervised (schemaJob order directory config)
  | .count directory => supervised (countJob directory)

/-- Runs a command line in a process that goes through sets in an order. -/
def run (order : SetOrder) (args : List String) : Job Ending :=
  answer order (requestOfLine args)

end LeafSurvey.Command
