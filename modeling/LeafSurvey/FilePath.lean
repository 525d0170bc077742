/-!
# File paths

A path is kept in normal form: repeated slashes, components that are a single
dot and a slash at the end are gone, two dots stay. A path starts at the working
directory, at the root, or at the second root that exactly two leading slashes
name. The empty path is the working directory itself.
-/

namespace LeafSurvey

/-- Where a path starts. -/
inductive Anchor where
  | working
  | root
  | doubleRoot
deriving DecidableEq, Repr

/-- A path in normal form. -/
structure FilePath where
  anchor : Anchor
  parts : List String
deriving DecidableEq, Repr

namespace Anchor

/-- The slashes that a path starts with. -/
def text : Anchor → String
  | working => ""
  | root => "/"
  | doubleRoot => "//"

/-- The anchor that leading slashes name. -/
def ofChars (cs : List Char) : Anchor :=
  match (cs.takeWhile (· == '/')).length with
  | 0 => working
  | 2 => doubleRoot
  | _ => root

end Anchor

namespace FilePath

/-- The components between slashes, without the empty ones and the single
dots. -/
def components (cs : List Char) : List String :=
  ((cs.splitOn '/').map String.ofList).filter fun part => part ≠ ""
    && part ≠ "."

/-- The normal form of a written path. -/
def ofString (s : String) : FilePath :=
  ⟨Anchor.ofChars s.toList, components s.toList⟩

/-- The written form; the empty path is written as a dot. -/
def text (p : FilePath) : String :=
  if p.anchor = .working ∧ p.parts = [] then "."
  else p.anchor.text ++ "/".intercalate p.parts

/-- The last component. -/
def name (p : FilePath) : String :=
  p.parts.getLastD ""

/-- The path without its last component. -/
def parent (p : FilePath) : FilePath :=
  { p with parts := p.parts.dropLast }

/-- The path continued by components. -/
def below (p : FilePath) (parts : List String) : FilePath :=
  { p with parts := p.parts ++ parts }

/-- The written form of the components of a path after those of a path above
it. -/
def relativeText (above p : FilePath) : String :=
  FilePath.text ⟨.working, p.parts.drop above.parts.length⟩

/-- The suffix of a file name: the last dot with what follows it, when neither
what precedes nor what follows the dot is empty. -/
def suffix (name : String) : List Char :=
  let reversed := name.toList.reverse
  let tail := reversed.takeWhile (· != '.')
  let front := reversed.drop (tail.length + 1)
  if tail.isEmpty || front.isEmpty then [] else '.' :: tail.reverse

/-- Whether a file name has the suffix of JSON documents, in letters of any
case. -/
def isDocumentName (name : String) : Bool :=
  (suffix name).map Char.toLower == ['.', 'j', 's', 'o', 'n']

end FilePath

end LeafSurvey
