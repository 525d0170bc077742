import LeafSurvey.Draft

/-!
# Corpora

A corpus is the list of documents found below a directory at one moment.
Documents are read anew for every pass over them. Each is counted twice: by the
entries of the document as read, and by the scalar tokens of its text;
`checkFile` requires the two counts to agree.
-/

namespace LeafSurvey

/-! ## Single files -/

namespace Store

/-- The document in a file, as written. A number that is not taken in ends the
reading. -/
def writtenDocument (s : Store) (p : FilePath) :
    Except Failure (Document Leaf) :=
  match s.read p with
  | .error fault => .error (.file fault)
  | .ok bytes =>
    match Json.refusedNumber? bytes, Json.ofBytes? bytes with
    | some fault, _ => .error (.number fault)
    | none, .error fault => .error (.document p fault)
    | none, .ok d => .ok d

/-- The document in a file, with each key of each object once. -/
def document (s : Store) (p : FilePath) : Except Failure (Document Leaf) := do
  return (← s.writtenDocument p).collapse

/-- The entries of a file. -/
def entriesOfFile (s : Store) (p : FilePath) : Except Failure (List Entry) := do
  match ((← s.document p).entries [] false).toExcept with
  | .ok es => return es
  | .error x => throw (.roundedLeaf x)

/-- The number of scalar tokens in a file. -/
def countTokens (s : Store) (p : FilePath) : Except Failure Nat := do
  return (← s.writtenDocument p).leafCount

/-- Checks that a file has as many entries as scalar tokens, and answers how
many. -/
def checkFile (s : Store) (p : FilePath) : Except Failure Nat := do
  let entries := (← s.entriesOfFile p).length
  let tokens ← s.countTokens p
  if entries = tokens then return tokens
  else throw (.leafMismatch p.name entries tokens)

/-- The number of scalar tokens in all of some files. -/
def countAll (s : Store) : List FilePath → Except Failure Nat
  | [] => .ok 0
  | file :: rest => do
    let tokens ← s.countTokens file
    return tokens + (← countAll s rest)

/-- Checks that entries are as many as the scalar tokens of some files. -/
def checkTotal (s : Store) (files : List FilePath)
    (es : Except Failure (List Entry)) :
    Except Failure Nat := do
  let tokens ← s.countAll files
  let entries := (← es).length
  if entries = tokens then return tokens
  else throw (.totalMismatch entries tokens)

/-! ## Discovery -/

/-- The documents below a directory, in code point order of their paths from
there. -/
def documentsBelow (s : Store) (root : FilePath) (place : Location) :
    List FilePath :=
  let found := (s.filesBelow place).filter fun names =>
    FilePath.isDocumentName (names.getLastD "")
  (found.mergeSort fun a b =>
    !decide ("/".intercalate b < "/".intercalate a)).map root.below

end Store

/-- The documents found below a directory. -/
structure Corpus where
  root : FilePath
  files : List FilePath
deriving DecidableEq, Repr

namespace Corpus

/-- The corpus below a directory. -/
def open? (s : Store) (root : FilePath) : Except Failure Corpus :=
  match s.resolve root with
  | .error .tooLong => .error (.file ⟨.tooLong, root⟩)
  | .error _ => .error (.noDirectory root)
  | .ok place =>
    match s.lookup place with
    | none => .error (.noDirectory root)
    | some (.file _) => .error (.notADirectory root)
    | some .directory => .ok ⟨root, s.documentsBelow root place⟩

/-- The entries of all documents, file by file. -/
def entries (c : Corpus) (s : Store) : Except Failure (List Entry) := do
  return (← c.files.mapM s.entriesOfFile).flatten

/-- The groups of all entries. -/
def groups (c : Corpus) (s : Store) : Except Failure Groups := do
  return Groups.ofEntries (← c.entries s)

/-- The two counts of a document. -/
structure Tally where
  file : FilePath
  entries : Nat
  tokens : Nat
deriving DecidableEq, Repr

/-- The two counts of one file, whether or not they agree. -/
def tally (s : Store) (file : FilePath) : Except Failure Tally := do
  let entries := (← s.entriesOfFile file).length
  return ⟨file, entries, ← s.countTokens file⟩

/-- The two counts of every document. -/
def tallies (c : Corpus) (s : Store) : Except Failure (List Tally) :=
  c.files.mapM (tally s)

end Corpus

end LeafSurvey
