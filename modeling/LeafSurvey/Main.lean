import LeafSurvey.Command.Basic

/-!
# The program

`main` answers a command line. The files to work on are named on standard input,
one path a line below the working directory, and a path with a slash at its end
names a directory; the settings file need not be named. They are taken into a
store, and what the command has changed there is brought back to the disk.
Notices are printed as the markup they are, and sets are gone through in the
order in which they are written.
-/

namespace LeafSurvey.Program

/-- The lines of standard input to its end. -/
partial def readLines (input : IO.FS.Stream) : IO (List String) := do
  let line ← input.getLine
  if line.isEmpty then return []
  return String.ofList (line.toList.filter (· ≠ '\n')) :: (← readLines input)

/-- Takes what is at a path into a store. What cannot be read is left out. -/
def takeIn (s : Store) (path : String) : IO Store := do
  if path.toList.getLast? = some '/' then
    return (s.ensureDirectories (.ofString path)).2
  match ← (IO.FS.readBinFile path).toBaseIO with
  | .ok bytes => return (s.place (.ofString path) bytes).2
  | .error _ => return s

/-- The store that a request works on. -/
def storeFor (request : Command.Request) : IO Store := do
  if request.needsFiles then
    let named ← readLines (← IO.getStdin)
    (named ++ request.settingsFile?.toList).foldlM takeIn .empty
  else return .empty

/-- The path that leads to a location. -/
def pathTo (place : Location) : String :=
  FilePath.text ⟨.working, place⟩

/-- Brings the new and the changed entries of a store to the disk, in their
order. -/
def bringBack (before after : Store) : IO Unit :=
  after.entries.forM fun e => do
    if before.lookup e.1 ≠ some e.2 then
      match e.2 with
      | .directory => IO.FS.createDirAll (pathTo e.1)
      | .file bytes => IO.FS.writeBinFile (pathTo e.1) bytes

/-- Prints what a job has shown and written. -/
def printShown (m : Machine) : IO Unit := do
  m.lines.forM fun line => IO.println line
  m.console.shown.forM fun n => n.lines.forM fun line => IO.println line

/-- Prints how a command line has ended and answers its code. -/
def printEnding : Except Failure Command.Ending → IO UInt32
  | .ok ending => do
    ending.help.forM fun text => IO.println text
    ending.complaint.forM fun text => IO.eprintln text
    return ending.code.toUInt32
  | .error failure => do
    IO.eprintln failure.message
    return 1

end LeafSurvey.Program

open LeafSurvey in
/-- Answers a command line. -/
def main (args : List String) : IO UInt32 := do
  let request := Command.requestOfLine args
  let before ← Program.storeFor request
  let (outcome, after) :=
    (Command.answer .written request).runOn ⟨before, .fresh none, []⟩
  Program.bringBack before after.store
  Program.printShown after
  Program.printEnding outcome
