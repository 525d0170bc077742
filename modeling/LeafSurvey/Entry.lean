import LeafSurvey.Emission
import LeafSurvey.Leaf
import LeafSurvey.Path
import LeafSurvey.Json.Document

/-!
# Entries

An entry is one scalar of a document with the path of object keys that leads to
it and a mark that tells whether an array encloses it. `Document.entries` walks
a document depth first. An array adds nothing to the path and marks everything
below; empty containers yield nothing. The walk breaks off at the first leaf
that has no exact scalar.
-/

namespace LeafSurvey

/-- One scalar leaf, addressed by the object keys that lead to it. -/
structure Entry where
  path : Path
  value : Scalar
  inArray : Bool
deriving DecidableEq, Repr

namespace Document

/-- The entry of a leaf, or the break at a leaf without exact scalar. -/
def leafEntries (path : Path) (inArray : Bool) (a : Leaf) :
    Emission Binary Entry :=
  match a.scalar? with
  | .ok value => .single ⟨path, value, inArray⟩
  | .error x => .fail x

mutual

/-- The entries of a document whose root has the given path and mark, in
document order. -/
def entries (path : Path) (inArray : Bool) :
    Document Leaf → Emission Binary Entry
  | leaf a => leafEntries path inArray a
  | array items => entriesOfItems path items
  | object members => entriesOfMembers path inArray members

/-- The entries of array items: the path stays and the mark is set. -/
def entriesOfItems (path : Path) : List (Document Leaf) → Emission Binary Entry
  | [] => .empty
  | d :: rest => entries path true d ++ entriesOfItems path rest

/-- The entries of object members: each key extends the path. -/
def entriesOfMembers (path : Path) (inArray : Bool) :
    List (String × Document Leaf) → Emission Binary Entry
  | [] => .empty
  | (key, d) :: rest =>
    entries (path ++ [key]) inArray d ++ entriesOfMembers path inArray rest

end

end Document

end LeafSurvey
