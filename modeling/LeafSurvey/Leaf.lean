import LeafSurvey.Number.Shortest

/-!
# Leaves and scalars

A leaf is what a document holds where it branches no further. Every leaf is
taken into the survey as a scalar of one of four kinds, and all numbers become
exact decimals. A leaf that was rounded to floating point on the way has lost
its exact value; `Leaf.scalar?` refuses it.
-/

namespace LeafSurvey

/-- The four kinds of scalar. -/
inductive Kind where
  | string
  | number
  | boolean
  | null
deriving DecidableEq, Repr

namespace Kind

/-- The name of a kind. -/
def name : Kind → String
  | string => "String"
  | number => "Number"
  | boolean => "Boolean"
  | null => "Null"

end Kind

/-- A scalar as the survey keeps it. -/
inductive Scalar where
  | text (value : String)
  | number (value : Decimal)
  | boolean (value : Bool)
  | null
deriving DecidableEq, Repr

namespace Scalar

/-- The kind of a scalar. -/
def kind : Scalar → Kind
  | text _ => .string
  | number _ => .number
  | boolean _ => .boolean
  | null => .null

end Scalar

/-- A leaf of a document. Integers and decimals are exact, a `rounded` number is
not. -/
inductive Leaf where
  | null
  | boolean (value : Bool)
  | text (value : String)
  | integer (value : Int)
  | decimal (value : Decimal)
  | rounded (value : Binary)
deriving DecidableEq, Repr

namespace Leaf

/-- The scalar of a leaf, or the rounded number that has none. -/
def scalar? : Leaf → Except Binary Scalar
  | null => .ok .null
  | boolean b => .ok (.boolean b)
  | text s => .ok (.text s)
  | integer n => .ok (.number (Decimal.ofInt n))
  | decimal d => .ok (.number d)
  | rounded x => .error x

end Leaf

end LeafSurvey
