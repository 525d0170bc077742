import LeafSurvey.Yaml.Timestamp
import LeafSurvey.Yaml.Token

/-!
# Tags, and the tags of plain scalars

A node's tag says what its text or its items mean. A plain scalar without a tag
gets one by its form: `Tag.ofForm` tries the forms of truth values, numbers,
nulls, dates and the special marks, and anything else is a text.
-/

namespace LeafSurvey.Yaml

/-- What a node stands for. -/
inductive Tag where
  | null
  | bool
  | int
  | float
  | date
  | text
  | bytes
  | list
  /-- A list of mappings of one entry each. -/
  | pairs
  /-- A mapping whose keys are all that counts. -/
  | set
  | map
  /-- The key that merges other mappings into one. -/
  | merge
  /-- The mark of a default value. -/
  | default
  | other (uri : List Char)
deriving DecidableEq, Repr

namespace Tag

/-- What the standard tags start with. -/
def standard : List Char := "tag:yaml.org,2002:".toList

/-- The tag of a full name. -/
def ofUri (uri : List Char) : Tag :=
  if uri.take standard.length = standard then
    match String.ofList (uri.drop standard.length) with
    | "null" => null
    | "bool" => bool
    | "int" => int
    | "float" => float
    | "timestamp" => date
    | "str" => text
    | "binary" => bytes
    | "seq" => list
    | "omap" => pairs
    | "pairs" => pairs
    | "set" => set
    | "map" => map
    | "merge" => merge
    | "value" => default
    | _ => other uri
  else other uri

/-! ## Forms of plain scalars -/

/-- The words for truth values. -/
def isBoolWord (s : String) : Bool :=
  ["yes", "Yes", "YES", "no", "No", "NO", "true", "True", "TRUE", "false",
    "False", "FALSE", "on", "On", "ON", "off", "Off", "OFF"].contains s

/-- The words for nothing. -/
def isNullWord (s : String) : Bool :=
  ["", "~", "null", "Null", "NULL"].contains s

/-- The marks of tags, anchors and aliases on their own. Such a text stands for
a piece of the format, which has no value. -/
def isSigil (s : String) : Bool :=
  ["!", "&", "*"].contains s

/-- The text after an optional sign. -/
def unsigned (cs : List Char) : List Char :=
  (Sign.split cs).2

/-- A digit or an underscore. -/
def isDigitOrMark (c : Char) : Bool :=
  c.isDigit || c = '_'

/-- A part of a number in base sixty after its colon: one digit, or two of which
the first is less than six. -/
def isSixtieth (part : List Char) : Bool :=
  match part with
  | [a] => a.isDigit
  | [a, b] => '0' ≤ a && a ≤ '5' && b.isDigit
  | _ => false

/-- Whole digits: one first and then any number of digits and underscores. -/
def isWhole (first : Char → Bool) (cs : List Char) : Bool :=
  match cs with
  | [] => false
  | c :: rest => first c && rest.all isDigitOrMark

/-- A digit other than zero. -/
def isNonZero (c : Char) : Bool :=
  c.isDigit && c ≠ '0'

/-- The forms of integers: base two, eight, ten, sixteen and sixty. -/
def isIntForm (cs : List Char) : Bool :=
  match unsigned cs with
  | ['0'] => true
  | '0' :: 'b' :: rest =>
    !rest.isEmpty && rest.all fun c => c = '0' || c = '1' || c = '_'
  | '0' :: 'x' :: rest =>
    !rest.isEmpty && rest.all fun c => isHexDigit c || c = '_'
  | '0' :: rest => rest.all fun c => ('0' ≤ c && c ≤ '7') || c = '_'
  | rest =>
    match rest.splitOn ':' with
    | [] => false
    | whole :: parts => isWhole isNonZero whole && parts.all isSixtieth

/-- An exponent with its sign, or nothing. -/
def isExponentForm (cs : List Char) : Bool :=
  match cs with
  | [] => true
  | e :: s :: rest =>
    (e = 'e' || e = 'E') && (s = '+' || s = '-') && !rest.isEmpty
      && rest.all Char.isDigit
  | _ => false

/-- Digits and underscores, then an exponent or nothing. -/
def isFractionForm (cs : List Char) : Bool :=
  isExponentForm (cs.dropWhile isDigitOrMark)

/-- The forms of floating-point numbers. A point is needed, and the exponent
needs its sign. -/
def isFloatForm (cs : List Char) : Bool :=
  let s := unsigned cs
  let whole := s.takeWhile (· ≠ '.')
  match s.dropWhile (· ≠ '.') with
  | [] => false
  | _ :: fraction =>
    if whole.isEmpty then
      ["inf", "Inf", "INF"].contains (String.ofList fraction)
        || (s.length = cs.length
          && ["nan", "NaN", "NAN"].contains (String.ofList fraction))
        || (s.length = cs.length && (fraction.head?.map Char.isDigit).getD false
            && isFractionForm fraction)
    else
      match whole.splitOn ':' with
      | [] => false
      | [digits] => isWhole Char.isDigit digits && isFractionForm fraction
      | digits :: parts =>
        isWhole Char.isDigit digits && parts.all isSixtieth
          && fraction.all isDigitOrMark

/-- The forms of dates and times. -/
def isDateForm (cs : List Char) : Bool :=
  ((Timestamp.ofChars? cs).map Timestamp.isPlainForm).getD false

/-- The tag of a plain scalar. -/
def ofPlain (cs : List Char) : Tag :=
  let s := String.ofList cs
  if isNullWord s then null
  else if isBoolWord s then bool
  else if isFloatForm cs then float
  else if isIntForm cs then int
  else if s = "<<" then merge
  else if s = "=" then default
  else if isSigil s then other (standard ++ "yaml".toList)
  else if isDateForm cs then date
  else text

/-- The characters of a text that count for its form. A line feed at the end
does not, unless it is all there is. -/
def formOf (cs : List Char) : List Char :=
  if 1 < cs.length ∧ cs.getLast? = some '\n' then cs.dropLast else cs

/-- The tag of a scalar whose form decides. -/
def ofForm : Literal → Tag
  | .chars cs => ofPlain (formOf cs)
  | .points _ => text

end Tag

end LeafSurvey.Yaml
