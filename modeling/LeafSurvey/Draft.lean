import LeafSurvey.FieldType
import LeafSurvey.Settings.Basic

/-!
# Field definitions and the type draft

Every named group becomes a field: its path joined by the delimiter is the name,
its path joined by points the label, and its entries give the type. Fields are
ordered by name; fields of one name keep the order of their groups. `Draft` is
the document that holds the fields.
-/

namespace LeafSurvey

/-- How the fields of a draft are named and labelled. -/
structure Naming where
  delimiter : String
  locale : Value
deriving Repr

namespace Settings

/-- A delimiter as a text. -/
def delimiterText? : Value → Except Failure String
  | .text d => .ok d
  | .points codes => .ok (Value.plain (.points codes))
  | .bytes _ => .error (.misuse .delimiterIsBytes)
  | _ => .error (.misuse .delimiterNotText)

/-- The locale, when it can be a key. -/
def localeKey? (s : Settings) : Except Failure Value :=
  if s.locale.isKey then .ok s.locale else .error (.misuse .localeNotKey)

/-- The naming that groups are to have. Where no group can be named nothing is
joined, and a delimiter that is no text does no harm. -/
def naming? (s : Settings) (groups : Groups) : Except Failure Naming := do
  if groups.named.isEmpty then return ⟨usualDelimiter, s.locale⟩
  return ⟨← delimiterText? s.delimiter, ← s.localeKey?⟩

end Settings

/-- The definition of one field. -/
structure Field where
  name : String
  locale : Value
  label : String
  required : Bool
  type : FieldType
deriving Repr

namespace Field

/-- The field of a group. No field is required. -/
def ofGroup (naming : Naming) (g : Group) : Field where
  name := g.path.joined naming.delimiter
  locale := naming.locale
  label := g.path.joined "."
  required := false
  type := Entries.fieldType g.members

/-- Whether one field may stand before another: its name does not come later. -/
def inOrder (a b : Field) : Bool :=
  !decide (b.name < a.name)

/-- The fields of all named groups, ordered by name. -/
def ofGroups (naming : Naming) (groups : Groups) : List Field :=
  (groups.named.map (ofGroup naming)).mergeSort inOrder

end Field

/-- The draft of a type with its fields. -/
structure Draft where
  key : Value
  locale : Value
  name : Value
  description : Value
  resourceTypes : List Value.Word
  fields : List Field
deriving Repr

namespace Draft

/-- The draft that settings describe. -/
def of? (s : Settings) (fields : List Field) : Except Failure Draft := do
  return {
    key := s.key
    locale := ← s.localeKey?
    name := s.name
    description := s.description
    resourceTypes := s.resourceTypes
    fields := fields }

end Draft

/-! ## Documents -/

/-- A mapping with texts as keys. -/
def record (members : List (String × Value)) : Value :=
  .map (members.map fun m => (.text m.1, m.2))

namespace FieldType

/-- The document form of a field type. -/
def toValue : FieldType → Value
  | scalar t => record [("name", .text t.name)]
  | set t =>
    record [("name", .text "Set"),
      ("elementType", record [("name", .text t.name)])]

end FieldType

namespace Field

/-- The document form of a field. -/
def toValue (d : Field) : Value :=
  record [("name", .text d.name), ("label", .map [(d.locale, .text d.label)]),
    ("required", .bool d.required), ("type", d.type.toValue)]

end Field

namespace Draft

/-- The document form of a draft. -/
def toValue (d : Draft) : Value :=
  record [("key", d.key), ("name", .map [(d.locale, d.name)]),
    ("description", .map [(d.locale, d.description)]),
    ("resourceTypeIds", .list (d.resourceTypes.map .ofWord)),
    ("fieldDefinitions", .list (d.fields.map Field.toValue))]

end Draft

end LeafSurvey
