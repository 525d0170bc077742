import LeafSurvey.FilePath
import LeafSurvey.Text.Quoted

/-!
# The file store

A store holds directories and files below a working directory, each at the list
of names that leads to it. A path is resolved name by name from the working
directory: every name but the last must be a directory, and two dots lead back
up. Operations answer with the new store or with the fault that stopped them;
making a directory with its missing parents may stop half way, so it answers
with both.
-/

namespace LeafSurvey

/-- The names from the working directory to a place in the store. -/
abbrev Location := List String

/-- What is at a location. -/
inductive Content where
  | file (bytes : ByteArray)
  | directory

namespace Content

/-- Files are compared byte by byte. -/
instance : DecidableEq Content
  | file ⟨x⟩, file ⟨y⟩ =>
    if h : x = y then isTrue (by rw [h]) else isFalse fun same => by
      cases same; exact h rfl
  | directory, directory => isTrue rfl
  | file _, directory => isFalse nofun
  | directory, file _ => isFalse nofun

end Content

/-- Directories and files below a working directory, which itself is always
there. -/
structure Store where
  entries : List (Location × Content)
deriving DecidableEq

/-- Why a file operation failed. -/
inductive FileProblem where
  | missing
  | exists
  | notDirectory
  | isDirectory
  /-- A name of the path is too long for any file, or the path is as a whole. -/
  | tooLong
  /-- The path holds a null character, which no file name can. -/
  | nullCharacter
deriving DecidableEq, Repr

/-- A failed file operation: the problem and the path it was asked for. -/
structure FileFault where
  problem : FileProblem
  path : FilePath
deriving DecidableEq, Repr

namespace FileFault

/-- The number and name of a problem. -/
def problemText : FileProblem → String
  | .missing => "[Errno 2] No such file or directory"
  | .exists => "[Errno 17] File exists"
  | .notDirectory => "[Errno 20] Not a directory"
  | .isDirectory => "[Errno 21] Is a directory"
  | .tooLong => "[Errno 36] File name too long"
  | .nullCharacter => "embedded null byte"

/-- The fault in words. -/
def message (f : FileFault) : String :=
  if f.problem = .nullCharacter then problemText f.problem
  else problemText f.problem ++ ": " ++ Text.quoted f.path.text

end FileFault

namespace Store

/-- A working directory that holds nothing. -/
def empty : Store := ⟨[]⟩

/-- What is at a location. -/
def lookup (s : Store) (place : Location) : Option Content :=
  if place = [] then some .directory
  else (s.entries.find? fun e => e.1 = place).map (·.2)

/-- Puts a content at a location, in place of what is there. -/
def putEntry (place : Location) (c : Content) :
    List (Location × Content) → List (Location × Content)
  | [] => [(place, c)]
  | e :: rest =>
    if e.1 = place then (place, c) :: rest else e :: putEntry place c rest

/-- The store with a content at a location. -/
def put (s : Store) (place : Location) (c : Content) : Store :=
  ⟨putEntry place c s.entries⟩

theorem find?_putEntry (place q : Location) (c : Content)
    (es : List (Location × Content)) :
    ((putEntry place c es).find? fun e => e.1 = q).map (·.2)
      = if q = place then some c
          else (es.find? fun e => e.1 = q).map (·.2) := by
  induction es with
  | nil => by_cases h : place = q <;> simp [putEntry, h, eq_comm]
  | cons e rest ih =>
    by_cases he : e.1 = place
    · by_cases hq : place = q <;> simp_all [putEntry, eq_comm]
    · by_cases hq : e.1 = q
      · have hne : ¬q = place := fun h => he (hq.trans h)
        simp [putEntry, hq, hne]
      · simpa [putEntry, he, hq] using ih

/-- What is put at a location is found there, and elsewhere nothing changes. -/
theorem lookup_put (s : Store) {place : Location} (h : place ≠ [])
    (q : Location) (c : Content) :
    (s.put place c).lookup q = if q = place then some c else s.lookup q := by
  by_cases hq : q = []
  · subst hq
    simp [lookup, Ne.symm h]
  · simp only [lookup, put, hq, if_false]
    exact find?_putEntry place q c s.entries

/-- The most bytes that a file name has. -/
def maxName : Nat := 255

/-- The most bytes that a path has. -/
def maxPath : Nat := 4095

/-- Follows names from a directory. The last name need not be there. -/
def follow (s : Store) (base : Location) :
    List String → Except FileProblem Location
  | [] => .ok base
  | ".." :: rest => follow s base.dropLast rest
  | name :: rest =>
    if maxName < name.utf8ByteSize then .error .tooLong
    else if rest.isEmpty then .ok (base ++ [name])
    else
      match s.lookup (base ++ [name]) with
      | some .directory => follow s (base ++ [name]) rest
      | some (.file _) => .error .notDirectory
      | none => .error .missing

/-- The location that a path names. -/
def resolve (s : Store) (p : FilePath) : Except FileProblem Location :=
  if p.parts.any fun part => part.toList.contains '\x00' then
    .error .nullCharacter
  else if maxPath < p.text.utf8ByteSize then .error .tooLong
  else follow s [] p.parts

/-- What a path names, if there is something. A path that is too long cannot be
asked for. -/
def find? (s : Store) (p : FilePath) : Except FileFault (Option Content) :=
  match s.resolve p with
  | .ok place => .ok (s.lookup place)
  | .error .tooLong => .error ⟨.tooLong, p⟩
  | .error _ => .ok none

/-- Whether a path names a directory. -/
def isDirectory (s : Store) (p : FilePath) : Bool :=
  match s.find? p with
  | .ok (some .directory) => true
  | _ => false

/-- The bytes of the file that a path names. -/
def read (s : Store) (p : FilePath) : Except FileFault ByteArray :=
  match s.resolve p with
  | .error problem => .error ⟨problem, p⟩
  | .ok place =>
    match s.lookup place with
    | some (.file bytes) => .ok bytes
    | some .directory => .error ⟨.isDirectory, p⟩
    | none => .error ⟨.missing, p⟩

/-- Writes a file, in place of the file that is there. -/
def write (s : Store) (p : FilePath) (bytes : ByteArray) :
    Except FileFault Store :=
  match s.resolve p with
  | .error problem => .error ⟨problem, p⟩
  | .ok place =>
    match s.lookup place with
    | some .directory => .error ⟨.isDirectory, p⟩
    | _ => .ok (s.put place (.file bytes))

/-- Makes one directory. -/
def makeDirectory (s : Store) (p : FilePath) : Except FileFault Store :=
  match s.resolve p with
  | .error problem => .error ⟨problem, p⟩
  | .ok place =>
    match s.lookup place with
    | some _ => .error ⟨.exists, p⟩
    | none => .ok (s.put place .directory)

/-- Forgives a failure to make a directory that is there already. -/
def settled (s : Store) (p : FilePath) (fault : FileFault) :
    Except FileFault Unit × Store :=
  if fault.problem ≠ .nullCharacter ∧ s.isDirectory p then (.ok (), s)
  else (.error fault, s)

/-- Makes a directory when its parents are there. -/
def ensureDirectory (s : Store) (p : FilePath) :
    Except FileFault Unit × Store :=
  match s.makeDirectory p with
  | .ok made => (.ok (), made)
  | .error fault =>
    if fault.problem = .missing then (.error fault, s) else s.settled p fault

/-- Makes the directory with the given components, last one first, and the
missing ones above it. -/
def ensureReversed (s : Store) (anchor : Anchor) :
    List String → Except FileFault Unit × Store
  | [] => s.ensureDirectory ⟨anchor, []⟩
  | part :: above =>
    let p : FilePath := ⟨anchor, (part :: above).reverse⟩
    match s.makeDirectory p with
    | .ok made => (.ok (), made)
    | .error fault =>
      if fault.problem = .missing then
        match ensureReversed s anchor above with
        | (.ok (), made) => made.ensureDirectory p
        | (.error f, made) => (.error f, made)
      else s.settled p fault

/-- Makes a directory and the missing ones above it. -/
def ensureDirectories (s : Store) (p : FilePath) :
    Except FileFault Unit × Store :=
  s.ensureReversed p.anchor p.parts.reverse

/-- Writes a file, making the missing directories above it. -/
def place (s : Store) (p : FilePath) (bytes : ByteArray) :
    Except FileFault Unit × Store :=
  match s.ensureDirectories p.parent with
  | (.error fault, made) => (.error fault, made)
  | (.ok (), made) =>
    match made.write p bytes with
    | .error fault => (.error fault, made)
    | .ok written => (.ok (), written)

/-- The files below a location, by the names that lead from there to each. -/
def filesBelow (s : Store) (place : Location) : List (List String) :=
  s.entries.filterMap fun e =>
    match e.2 with
    | .file _ =>
      if place.isPrefixOf e.1 && place.length < e.1.length then
        some (e.1.drop place.length)
      else none
    | .directory => none

/-- Removes what a path names, with everything below it. -/
def remove (s : Store) (p : FilePath) : Except FileFault Store :=
  match s.resolve p with
  | .error problem => .error ⟨problem, p⟩
  | .ok place =>
    match s.lookup place with
    | none => .error ⟨.missing, p⟩
    | some _ => .ok ⟨s.entries.filter fun e => !place.isPrefixOf e.1⟩

/-- Every directory and file by its path from the working directory, directories
with a slash at the end, in code point order. -/
def listing (s : Store) : List String :=
  (s.entries.map fun e =>
    match e.2 with
    | .file _ => "/".intercalate e.1
    | .directory =>
      "/".intercalate e.1 ++ "/").mergeSort fun a b => !decide (b < a)

end Store

end LeafSurvey
