import LeafSurvey.Text.Digits

/-!
# Paths of keys

A path lists the object keys that lead from the root of a document to a leaf.
Records that differ only by a number in their path are siblings:
`Path.normalized` drops the purely numeric segments, so that siblings share one
path.
-/

namespace LeafSurvey

/-- The object keys from the root of a document, outermost first. -/
abbrev Path := List String

namespace Path

/-- A segment made of decimal digits alone, of any script. -/
def isNumeric (segment : String) : Bool :=
  Text.isDecimal segment

/-- The path without its purely numeric segments. -/
def normalized (path : Path) : Path :=
  path.filter fun segment => !isNumeric segment

theorem normalized_append (p q : Path) :
    (p ++ q).normalized = p.normalized ++ q.normalized :=
  List.filter_append ..

/-- Normalizing twice changes nothing more. -/
theorem normalized_normalized (path : Path) :
    path.normalized.normalized = path.normalized := by
  simp [normalized, List.filter_filter]

/-- The segments with a text between neighbours. -/
def joined (delimiter : String) (path : Path) : String :=
  delimiter.intercalate path

end Path

end LeafSurvey
