import LeafSurvey.Value

/-!
# Texts of scalars

A scalar's text is a list of characters, but for one case: an escape between
double quotes may write half of a surrogate pair, and then the text is kept by
its code points.
-/

namespace LeafSurvey.Yaml

/-- The text of a scalar. -/
inductive Literal where
  | chars (cs : List Char)
  /-- Code points, with halves of surrogate pairs among them. -/
  | points (codes : List Nat)
deriving DecidableEq, Repr

namespace Literal

/-- The text with given code points. -/
def ofPoints (codes : List Nat) : Literal :=
  match Text.chars? codes with
  | some cs => chars cs
  | none => points codes

/-- The characters of a text. A half counts as the replacement character: like a
half, that is part of no number, word or date. -/
def toChars : Literal → List Char
  | chars cs => cs
  | points codes => codes.map Text.charOrReplacement

/-- The value that is the text itself. -/
def value : Literal → Value
  | chars cs => .text (String.ofList cs)
  | points codes => .points codes

end Literal

end LeafSurvey.Yaml
