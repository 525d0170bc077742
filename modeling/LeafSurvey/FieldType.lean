import LeafSurvey.Group

/-!
# Field types

The type of a field is read off the entries of its group. Only the set of kinds
that occur, nulls left out, and the array marks count: one kind gives its type,
none or several give `String`, and one entry in an array makes the type a set.
-/

namespace LeafSurvey

/-- The types of single values. -/
inductive PlainType where
  | string
  | number
  | boolean
deriving DecidableEq, Repr

namespace PlainType

/-- The name of a scalar type. -/
def name : PlainType → String
  | string => "String"
  | number => "Number"
  | boolean => "Boolean"

/-- The type that fits values of one kind. Nulls alone are taken for strings. -/
def ofKind : Kind → PlainType
  | .string => string
  | .number => number
  | .boolean => boolean
  | .null => string

/-- The type that fits values of all the kinds given: of a single kind its own,
else `string`. -/
def ofKinds (kinds : List Kind) : PlainType :=
  match kinds.eraseDups with
  | [kind] => ofKind kind
  | _ => string

end PlainType

/-- The type of a field: of one value, or of a set of values. -/
inductive FieldType where
  | scalar (type : PlainType)
  | set (element : PlainType)
deriving DecidableEq, Repr

namespace FieldType

/-- The name of a field type; every set is called the same. -/
def name : FieldType → String
  | scalar t => t.name
  | set _ => "Set"

/-- The name with the element type of a set. -/
def fullName : FieldType → String
  | scalar t => t.name
  | set t => "Set<" ++ t.name ++ ">"

end FieldType

namespace Entries

/-- The kinds of value that occur among entries, nulls left out, ordered by
name. -/
def kinds (es : List Entry) : List Kind :=
  [Kind.boolean, .number, .string].filter fun k => es.any fun e =>
    e.value.kind == k

/-- Whether several kinds of value occur. -/
def isMixed (es : List Entry) : Bool :=
  1 < (kinds es).length

/-- Whether some entry stands in an array. -/
def isPlural (es : List Entry) : Bool :=
  es.any (·.inArray)

/-- The scalar type that fits all the values. -/
def plainType (es : List Entry) : PlainType :=
  PlainType.ofKinds (kinds es)

/-- The field type that fits all the entries. -/
def fieldType (es : List Entry) : FieldType :=
  if isPlural es then .set (plainType es) else .scalar (plainType es)

end Entries

end LeafSurvey
